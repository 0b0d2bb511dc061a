import ZimaScope.Db.Deltas
import ZimaScope.Db.Operations
import ZimaScope.Lib.System

/-! # Consistent buckets

Whatever is ingested, deleted and cleared, the traffic buckets stay the sums of
the buckets of the endpoints, and the bucket of an hour stays the sum of the
buckets of its minutes, as far as retention has left those.
-/

namespace ZimaScope

open TrafficDb Storage Table

/-! ## Hours and their minutes -/

section Hours

variable {κ : Type} [DecidableEq κ] (bucket : κ → TimeBucketKey) (E : κ → Prop) [DecidablePred E]

/-- The hours that start at none of these cutoffs or later are the sums of their minutes. -/
def HoursExact (cutoffs : List ℤ) (t : Table κ TimeBucket) : Prop :=
  ∀ start ifindex, msPerHour ∣ start → start + msPerHour < 2 ^ 63 →
    (∀ cutoff ∈ cutoffs, cutoff ≤ start) →
    totalOf TimeBucket.counters (fun k => E k ∧ bucket k = ⟨.hour, start, ifindex⟩) t =
      totalOf TimeBucket.counters (fun k => E k ∧ InHour start ifindex (bucket k)) t

/-- The start of the minutes that the retention policy keeps. -/
def minuteCutoff (now : SystemTime) : ℤ := unixMillis now - minuteBucketRetentionMs

variable {bucket E} {cutoffs : List ℤ} {t : Table κ TimeBucket} {now : SystemTime}

theorem keptBuckets_hour {start ifindex : ℤ} (h : minuteCutoff now ≤ start) :
    keptBuckets now ⟨.hour, start, ifindex⟩ = true := by
  unfold minuteCutoff minuteBucketRetentionMs at h
  unfold keptBuckets Tables.keptBucket hourBucketRetentionMs
  simp
  omega

theorem keptBuckets_inHour {start ifindex : ℤ} {key : TimeBucketKey}
    (h : minuteCutoff now ≤ start) (hk : InHour start ifindex key) : keptBuckets now key = true := by
  obtain ⟨hres, hstart, -, -⟩ := hk
  unfold minuteCutoff at h
  unfold keptBuckets Tables.keptBucket
  simp [hres]
  omega

theorem HoursExact.filter (h : HoursExact bucket E cutoffs t) :
    HoursExact bucket E (minuteCutoff now :: cutoffs)
      (t.filter fun k _ => keptBuckets now (bucket k)) := by
  intro start ifindex hdvd hend hcutoffs
  have hcutoff : minuteCutoff now ≤ start := hcutoffs _ List.mem_cons_self
  rw [totalOf_filter, totalOf_filter]
  · exact h start ifindex hdvd hend fun cutoff hmem => hcutoffs _ (List.mem_cons_of_mem _ hmem)
  · exact fun k hk => keptBuckets_inHour hcutoff hk.2
  · rintro k ⟨-, hk⟩
    rw [hk]
    exact keptBuckets_hour hcutoff

theorem HoursExact.addAll {writes : List (κ × TimeBucket)} (h : HoursExact bucket E cutoffs t)
    (hwrites : ∀ start ifindex, msPerHour ∣ start → start + msPerHour < 2 ^ 63 →
      amount TimeBucket.counters (fun k => E k ∧ bucket k = ⟨.hour, start, ifindex⟩) writes =
        amount TimeBucket.counters (fun k => E k ∧ InHour start ifindex (bucket k)) writes) :
    HoursExact bucket E cutoffs (addAll TimeBucket.onConflict writes t) := by
  intro start ifindex hdvd hend hcutoffs
  rw [totalOf_addAll TimeBucket.counters_onConflict, totalOf_addAll TimeBucket.counters_onConflict,
    h start ifindex hdvd hend hcutoffs, hwrites start ifindex hdvd hend]

end Hours

/-! ## The invariant -/

/-- The start of an hour, but for the last one of the range. -/
def StartsHour (key : TimeBucketKey) : Prop :=
  key.resolution = .hour → msPerHour ∣ key.startMs ∨ key.startMs = 2 ^ 63 - 1

structure BucketsInv (cutoffs : List ℤ) (traffic : Table TimeBucketKey TimeBucket)
    (entities : Table EntityBucketKey TimeBucket) : Prop where
  endpoints : ∀ key, totalOf TimeBucket.counters (· = key) traffic =
    totalOf TimeBucket.counters (fun k => k.entity.isEndpoint ∧ k.bucket = key) entities
  present : ∀ key, traffic.Has key ↔ ∃ address, entities.Has ⟨.endpoint address, key⟩
  starts : ∀ key, traffic.Has key → StartsHour key
  entityStarts : ∀ k, entities.Has k → StartsHour k.bucket
  hours : HoursExact id (fun _ => True) cutoffs traffic
  entityHours : ∀ entity, HoursExact EntityBucketKey.bucket (·.entity = entity) cutoffs entities
  nonneg : ∀ key, 0 ≤ amountAt TimeBucket.counters traffic key

section Invariant

variable {cutoffs : List ℤ} {traffic : Table TimeBucketKey TimeBucket}
  {entities : Table EntityBucketKey TimeBucket} {now : SystemTime} {input : IngestInput}
  {moves : List (FlowRecord × FlowDelta)}

theorem BucketsInv.empty : BucketsInv cutoffs ∅ ∅ where
  endpoints _ := rfl
  present key := by simp [Has, find_empty]
  starts key h := by simp [Has, find_empty] at h
  entityStarts k h := by simp [Has, find_empty] at h
  hours _ _ _ _ _ := rfl
  entityHours _ _ _ _ _ _ := rfl
  nonneg _ := le_rfl

theorem BucketsInv.filter (h : BucketsInv cutoffs traffic entities) :
    BucketsInv (minuteCutoff now :: cutoffs) (traffic.filter fun key _ => keptBuckets now key)
      (entities.filter fun k _ => keptBuckets now k.bucket) where
  endpoints key := by
    cases hk : keptBuckets now key with
    | true =>
      rw [totalOf_filter, totalOf_filter]
      · exact h.endpoints key
      · rintro k ⟨-, rfl⟩
        exact hk
      · rintro k rfl
        exact hk
    | false =>
      rw [totalOf_filter_eq_zero, totalOf_filter_eq_zero]
      · rintro k ⟨-, rfl⟩
        exact hk
      · rintro k rfl
        exact hk
  present key := by
    rw [has_filter, h.present key, ← exists_and_right]
    refine exists_congr fun address => ?_
    rw [has_filter]
  starts key hk := h.starts key (has_filter.mp hk).1
  entityStarts k hk := h.entityStarts k (has_filter.mp hk).1
  hours := h.hours.filter
  entityHours entity := (h.entityHours entity).filter
  nonneg key := by
    rw [amountAt_filter]
    split
    · exact h.nonneg key
    · exact le_rfl

theorem Touched.startsHour {key : TimeBucketKey} (h : Touched input moves key) : StartsHour key := by
  obtain ⟨c, -, b, hb, rfl⟩ := h
  rcases mem_bucketStarts hb with rfl | rfl
  · exact fun hres => BucketResolution.noConfusion hres
  · exact fun _ => hourStart_dvd

theorem BucketsInv.addAll (h : BucketsInv cutoffs traffic entities)
    (hfits : Fits (moves.map Prod.snd)) :
    BucketsInv cutoffs
      (addAll TimeBucket.onConflict (trafficWrites input (totalsOf moves)) traffic)
      (addAll TimeBucket.onConflict (entityWrites input moves) entities) where
  endpoints key := by
    rw [totalOf_addAll TimeBucket.counters_onConflict,
      totalOf_addAll TimeBucket.counters_onConflict, h.endpoints key, amount_trafficWrites hfits,
      amount_entityWrites (E := (·.isEndpoint)) (q := (· = key)) hfits]
    congr 2
    funext c
    exact (weight_isEndpoint c).symm
  present key := by
    rw [has_addAll, mem_trafficWrites, h.present key, ← mem_entityWrites, ← exists_or]
    exact exists_congr fun address => has_addAll.symm
  starts key hk := by
    rcases has_addAll.mp hk with hk | hk
    · exact h.starts key hk
    · exact Touched.startsHour (mem_trafficWrites.mp hk)
  entityStarts k hk := by
    rcases has_addAll.mp hk with hk | ⟨w, hw, rfl⟩
    · exact h.entityStarts k hk
    · exact Touched.startsHour (touched_of_mem_entityWrites hw)
  hours := by
    refine h.hours.addAll fun start ifindex hdvd hend => ?_
    simp only [true_and, id_eq]
    rw [amount_trafficWrites hfits, amount_trafficWrites hfits, spread_hour hdvd hend]
  entityHours entity := by
    refine (h.entityHours entity).addAll fun start ifindex hdvd hend => ?_
    rw [amount_entityWrites (E := (· = entity)) (q := (· = ⟨.hour, start, ifindex⟩)) hfits,
      amount_entityWrites (E := (· = entity)) (q := InHour start ifindex) hfits,
      spread_hour hdvd hend]
  nonneg key := by
    rw [amountAt_addAll TimeBucket.counters_onConflict, amount_trafficWrites hfits]
    exact add_nonneg (h.nonneg key) spread_nonneg

/-- Fewer hours are asked for. -/
theorem BucketsInv.mono {cutoffs' : List ℤ} (h : BucketsInv cutoffs traffic entities)
    (hsub : cutoffs ⊆ cutoffs') : BucketsInv cutoffs' traffic entities :=
  { h with
    hours := fun start ifindex hdvd hend hcutoffs =>
      h.hours start ifindex hdvd hend fun cutoff hmem => hcutoffs cutoff (hsub hmem)
    entityHours := fun entity start ifindex hdvd hend hcutoffs =>
      h.entityHours entity start ifindex hdvd hend fun cutoff hmem => hcutoffs cutoff (hsub hmem) }

end Invariant

/-! ## Runs -/

/-- A database, with the cutoffs of the minutes that the retention policy has deleted so far. -/
structure BucketHistory where
  db : TrafficDb
  cutoffs : List ℤ

/-- The cutoffs after a call of the retention policy. -/
def cutoffsAfter (db : TrafficDb) (nowInstant : Instant) (now : SystemTime)
    (cutoffs : List ℤ) : List ℤ :=
  if db.policyDue nowInstant then minuteCutoff now :: cutoffs else cutoffs

namespace Operation

/-- What a batch adds to a bucket fits its columns. -/
def Fits : Operation → Prop
  | .ingest input => TrafficDb.Fits (input.batch.flows.map Sighting.flowDelta)
  | _ => True

/-- The cutoffs after an operation. -/
def cutoffs (db : TrafficDb) (cutoffs : List ℤ) : Operation → List ℤ
  | .ingest input => cutoffsAfter db input.policyInstant input.nowSystem cutoffs
  | .enforcePolicy _ nowInstant now => cutoffsAfter db nowInstant now cutoffs
  | .saveSettings _ nowInstant now => cutoffsAfter db nowInstant now cutoffs
  | .clearHistory => cutoffs
  | .restart _ => cutoffs

end Operation

/-- The runs of successful operations from an empty database. -/
def bucketHistories (flowId : FlowKey → UInt64) : System BucketHistory where
  init s := s.db.tables = {} ∧ s.cutoffs = []
  step s s' := ∃ op : Operation, op.Succeeds flowId s.db s'.db ∧ op.Fits ∧
    s'.cutoffs = op.cutoffs s.db s.cutoffs

/-- The whole hour is in the range of the column, and none of its minutes were deleted. -/
def WithinRetention (cutoffs : List ℤ) (start : ℤ) : Prop :=
  start + msPerHour < 2 ^ 63 ∧ ∀ cutoff ∈ cutoffs, cutoff ≤ start

/-- The bucket tables agree with each other. -/
structure BucketsConsistent (cutoffs : List ℤ) (t : Tables) : Prop where
  endpoints : ∀ key, amountAt TimeBucket.counters t.trafficBuckets key =
    totalOf TimeBucket.counters (fun k => k.entity.isEndpoint ∧ k.bucket = key) t.entityBuckets
  present : ∀ key, t.trafficBuckets.Has key ↔ ∃ address, t.entityBuckets.Has ⟨.endpoint address, key⟩
  hours : ∀ start ifindex, t.trafficBuckets.Has ⟨.hour, start, ifindex⟩ →
    WithinRetention cutoffs start →
      amountAt TimeBucket.counters t.trafficBuckets ⟨.hour, start, ifindex⟩ =
        totalOf TimeBucket.counters (InHour start ifindex) t.trafficBuckets
  entityHours : ∀ entity start ifindex, t.entityBuckets.Has ⟨entity, .hour, start, ifindex⟩ →
    WithinRetention cutoffs start →
      amountAt TimeBucket.counters t.entityBuckets ⟨entity, .hour, start, ifindex⟩ =
        totalOf TimeBucket.counters (fun k => k.entity = entity ∧ InHour start ifindex k.bucket)
          t.entityBuckets

namespace BucketsInv

variable {cutoffs : List ℤ} {t : Tables}

/-- Before the last hour of the range every hour starts at one. -/
theorem dvd_of_startsHour {start ifindex : ℤ} (h : StartsHour ⟨.hour, start, ifindex⟩)
    (hend : start + msPerHour < 2 ^ 63) : msPerHour ∣ start := by
  rcases h rfl with h | rfl
  · exact h
  · unfold msPerHour at hend
    omega

theorem consistent (h : BucketsInv cutoffs t.trafficBuckets t.entityBuckets) :
    BucketsConsistent cutoffs t where
  endpoints key := totalOf_eq.symm.trans (h.endpoints key)
  present := h.present
  hours start ifindex hhas hin := by
    have hhour := h.hours start ifindex (dvd_of_startsHour (h.starts _ hhas) hin.1) hin.1 hin.2
    simpa only [true_and, id_eq, totalOf_eq] using hhour
  entityHours entity start ifindex hhas hin := by
    have hhour := h.entityHours entity start ifindex
      (dvd_of_startsHour (h.entityStarts _ hhas) hin.1) hin.1 hin.2
    rw [← hhour, ← totalOf_eq]
    refine totalOf_congr fun k _ => ?_
    constructor
    · rintro rfl
      exact ⟨rfl, rfl⟩
    · rintro ⟨rfl, hbucket⟩
      rw [← hbucket]

variable {db : TrafficDb} {settings : Settings} {nowInstant : Instant} {now : SystemTime}

theorem enforced (h : BucketsInv cutoffs db.tables.trafficBuckets db.tables.entityBuckets) :
    BucketsInv (cutoffsAfter db nowInstant now cutoffs)
      (db.enforced settings nowInstant now).tables.trafficBuckets
      (db.enforced settings nowInstant now).tables.entityBuckets := by
  unfold cutoffsAfter TrafficDb.enforced
  split
  · have hbuckets : (db.tables.enforced settings now).buckets = _ := Tables.buckets_enforced
    obtain ⟨htraffic, hrest⟩ := Prod.ext_iff.mp hbuckets
    obtain ⟨hentity, -⟩ := Prod.ext_iff.mp hrest
    simp only [Tables.buckets] at htraffic hentity
    simp only [htraffic, hentity]
    exact h.filter
  · exact h

/-- What an operation makes of the buckets. -/
theorem step {flowId : FlowKey → UInt64} {op : Operation} {db db' : TrafficDb}
    (h : BucketsInv cutoffs db.tables.trafficBuckets db.tables.entityBuckets)
    (hop : op.Effect flowId db db') (hfits : op.Fits) :
    BucketsInv (op.cutoffs db cutoffs) db'.tables.trafficBuckets db'.tables.entityBuckets := by
  cases op with
  | ingest input =>
    obtain ⟨stored, touched, event, hinterval⟩ := hop
    have hstored : BucketsInv cutoffs stored.tables.trafficBuckets stored.tables.entityBuckets := by
      obtain ⟨htraffic, hrest⟩ := Prod.ext_iff.mp hinterval.stores.buckets
      obtain ⟨hentity, -⟩ := Prod.ext_iff.mp hrest
      simp only [Tables.buckets] at htraffic hentity
      rw [htraffic, hentity]
      exact h
    have hdue : cutoffsAfter db input.policyInstant input.nowSystem cutoffs =
        cutoffsAfter stored input.policyInstant input.nowSystem cutoffs := by
      unfold cutoffsAfter policyDue
      rw [hinterval.stores.live]
    change BucketsInv (cutoffsAfter db input.policyInstant input.nowSystem cutoffs) _ _
    rw [hinterval.traffic, hinterval.entities, hdue]
    exact hstored.enforced.addAll (fits_movesOf hinterval.touches hfits)
  | enforcePolicy settings nowInstant now =>
    obtain rfl := hop
    exact h.enforced
  | saveSettings settings nowInstant now =>
    obtain rfl := hop
    exact h.enforced
  | clearHistory =>
    rw [show db'.tables = _ from hop]
    exact BucketsInv.empty
  | restart =>
    rw [show db'.tables = _ from hop]
    exact h

end BucketsInv

theorem BucketHistory.inv {flowId : FlowKey → UInt64} {s : BucketHistory}
    (hr : (bucketHistories flowId).Reachable s) :
    BucketsInv s.cutoffs s.db.tables.trafficBuckets s.db.tables.entityBuckets := by
  refine hr.invariant (P := fun s =>
    BucketsInv s.cutoffs s.db.tables.trafficBuckets s.db.tables.entityBuckets) ?_ ?_
  · rintro ⟨db, cutoffs⟩ ⟨hdb, -⟩
    simp only at hdb ⊢
    rw [hdb]
    exact BucketsInv.empty
  · rintro s s' hs ⟨op, hop, hfits, hcutoffs⟩
    rw [hcutoffs]
    exact hs.step hop.effect hfits

/-- Every reachable database is consistent. -/
theorem buckets_consistent {flowId : FlowKey → UInt64} {s : BucketHistory}
    (hr : (bucketHistories flowId).Reachable s) : BucketsConsistent s.cutoffs s.db.tables :=
  (BucketHistory.inv hr).consistent

/-- The buckets after one interval with one flow. -/
theorem buckets_consistent_oneUpdate : BucketsConsistent [minuteCutoff 1700000000123456789]
    (tryIngest (fun _ => 7) oneUpdate ⟨{}, []⟩).2.store.tables := by
  have hfits : (Operation.ingest oneUpdate).Fits := by
    intro ifindex
    unfold oneUpdate lanInterval
    simp only
    rw [List.map_singleton, movedOn_singleton]
    split
    · decide
    · decide
  obtain ⟨event, c', h⟩ := exists_of_isOk (x := tryIngest (fun _ => 7) oneUpdate) (c := ⟨{}, []⟩)
    (by decide +kernel)
  have hr : (bucketHistories fun _ => 7).Reachable
      ⟨c'.store, cutoffsAfter {} 11 1700000000123456789 []⟩ :=
    .step (.init (s := ⟨{}, []⟩) ⟨rfl, rfl⟩) ⟨.ingest oneUpdate, .ingest h, hfits, rfl⟩
  rw [h]
  exact buckets_consistent hr

end ZimaScope
