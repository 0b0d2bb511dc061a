import ZimaScope.Db.Recording

/-! # Retention

What the retention policy leaves of the tables, when it is due: flows within
capacity and retention, and the buckets of either resolution that are recent
enough.
-/

namespace ZimaScope

open TrafficDb Storage

namespace Tables

/-- The tables after these statements. -/
def after (statements : List (Tables → Tables)) (t : Tables) : Tables :=
  statements.foldl (fun t f => f t) t

theorem after_append {fs gs : List (Tables → Tables)} {t : Tables} :
    after (fs ++ gs) t = after gs (after fs t) := List.foldl_append

variable (t : Tables) (settings : Settings) (now : SystemTime)

/-- By how much the flows exceed their capacity. -/
def overflow : ℤ := t.flowStats.flowsTotal - settings.resources.maxFlowEntries

/-- The oldest flows, if there are too many. -/
def deleteOverflow : Tables :=
  if 0 < t.overflow settings then t.deleteOldestFlows (t.overflow settings) else t

/-- The tables after the retention policy. -/
def enforced : Tables := after (policyDeletes settings now) (t.deleteOverflow settings)

end Tables

/-- A flow that ended and is past its retention. -/
def FlowRow.expired (settings : Settings) (now : SystemTime) (row : FlowRow) : Bool :=
  row.ended && (!settings.history.enabled ||
    row.lastSeenMs < unixMillis now - settings.history.retentionDays * msPerDay)

/-- Whether the policy keeps a flow. -/
def Tables.keptFlow (t : Tables) (settings : Settings) (now : SystemTime) (id : UInt64)
    (row : FlowRow) : Bool :=
  !(id ∈ t.oldestFlows (t.overflow settings)) && !row.expired settings now

/-- Whether the policy keeps a bucket. -/
def keptBuckets (now : SystemTime) (key : TimeBucketKey) : Bool :=
  Tables.keptBucket .minute (unixMillis now - minuteBucketRetentionMs) key &&
    Tables.keptBucket .hour (unixMillis now - hourBucketRetentionMs) key

namespace Tables

variable {t : Tables} {settings : Settings} {now : SystemTime}

/-- How old flows are does not depend on their associations. -/
theorem oldestFlows_congr {t' : Tables} {limit : ℤ} (h : t.undomained = t'.undomained) :
    t.oldestFlows limit = t'.oldestFlows limit := by
  have hsort : ∀ t : Tables, t.oldestFlows limit =
      ((t.undomained.rows.insertionSort Older).take limit.toNat).map Prod.fst := by
    intro t
    have hmap := List.map_insertionSort (r := Older) (s := Older)
      (fun r : UInt64 × FlowRow => (r.1, r.2.undomained)) t.flows.rows fun _ _ _ _ => Iff.rfl
    change _ = (((t.flows.rows.map fun r => (r.1, r.2.undomained)).insertionSort Older).take _).map _
    rw [← hmap, ← List.map_take, List.map_map]
    rfl
  rw [hsort, hsort, h]

theorem overflow_eq : t.overflow settings =
    t.drift + t.undomained.total (fun _ _ => 1) - settings.resources.maxFlowEntries := by
  unfold overflow undomained
  rw [Table.total_mapRows]
  change t.flowStats.flowsTotal - _ =
    t.flowStats.flowsTotal - t.flows.total (fun _ _ => 1) + t.flows.total (fun _ _ => 1) - _
  rw [sub_add_cancel]

theorem keptFlow_congr {t' : Tables} (h : t.undomained = t'.undomained) (hd : t.drift = t'.drift)
    (id : UInt64) (row : FlowRow) :
    t.keptFlow settings now id row = t'.keptFlow settings now id row.undomained := by
  unfold keptFlow
  rw [overflow_eq, overflow_eq, h, hd, oldestFlows_congr h]
  rfl

theorem oldestFlows_of_nonpos {limit : ℤ} (h : limit ≤ 0) : t.oldestFlows limit = [] := by
  unfold oldestFlows
  rw [Int.toNat_of_nonpos h, List.take_zero]
  rfl

theorem flows_deleteOverflow : (t.deleteOverflow settings).flows =
    t.flows.filter fun id _ => !(id ∈ t.oldestFlows (t.overflow settings)) := by
  unfold deleteOverflow
  split
  · exact flows_deleteFlows
  · next h =>
    rw [oldestFlows_of_nonpos (not_lt.mp h)]
    ext1
    exact (List.filter_eq_self.mpr fun _ _ => rfl).symm

theorem buckets_deleteOverflow : (t.deleteOverflow settings).buckets = t.buckets := by
  unfold deleteOverflow
  split
  · exact buckets_deleteFlows
  · rfl

variable (settings now) in
/-- The deletes of the policy that concern flows and applications. -/
def flowDeletes : List (Tables → Tables) :=
  (policyDeletes settings now).take 2

variable (now) in
def bucketDeletes : List (Tables → Tables) :=
  [fun t => t.deleteObservations (unixMillis now),
    fun t => t.deleteTrafficBuckets .minute (unixMillis now - minuteBucketRetentionMs),
    fun t => t.deleteTrafficBuckets .hour (unixMillis now - hourBucketRetentionMs),
    fun t => t.deleteEntityBuckets .minute (unixMillis now - minuteBucketRetentionMs),
    fun t => t.deleteEntityBuckets .hour (unixMillis now - hourBucketRetentionMs)]

theorem policyDeletes_eq : policyDeletes settings now = flowDeletes settings now ++ bucketDeletes now := by
  unfold flowDeletes policyDeletes
  split <;> rfl

theorem flows_bucketDeletes : (after (bucketDeletes now) t).flows = t.flows := rfl

theorem buckets_bucketDeletes : (after (bucketDeletes now) t).buckets =
    (t.trafficBuckets.filter fun key _ => keptBuckets now key,
      t.entityBuckets.filter fun key _ => keptBuckets now key.bucket, t.entityRates) := by
  simp only [after, bucketDeletes, List.foldl_cons, List.foldl_nil, deleteObservations,
    deleteTrafficBuckets, deleteEntityBuckets, buckets, Table.filter_filter]
  rfl

theorem flows_flowDeletes : (after (flowDeletes settings now) t).flows =
    t.flows.filter fun _ row => !row.expired settings now := by
  unfold after flowDeletes policyDeletes FlowRow.expired
  cases settings.history.enabled with
  | true =>
    simp only [if_true, List.cons_append, List.take_succ_cons, List.take_zero, List.foldl_cons,
      List.foldl_nil, deleteApplications, flows_deleteFlows, Bool.not_true, Bool.false_or]
  | false =>
    simp only [Bool.false_eq_true, if_false, List.cons_append, List.take_succ_cons, List.take_zero,
      List.foldl_cons, List.foldl_nil, deleteApplications, flows_deleteFlows, Bool.not_false,
      Bool.true_or, Bool.and_true]

theorem buckets_flowDeletes : (after (flowDeletes settings now) t).buckets =
    t.buckets := by
  unfold flowDeletes policyDeletes
  cases settings.history.enabled with
  | true => exact buckets_deleteFlows
  | false => exact buckets_deleteFlows

theorem flows_enforced : (t.enforced settings now).flows =
    t.flows.filter (t.keptFlow settings now) := by
  unfold enforced
  rw [policyDeletes_eq, after_append, flows_bucketDeletes, flows_flowDeletes,
    flows_deleteOverflow, Table.filter_filter]
  rfl

theorem buckets_enforced : (t.enforced settings now).buckets =
    (t.trafficBuckets.filter fun key _ => keptBuckets now key,
      t.entityBuckets.filter fun key _ => keptBuckets now key.bucket, t.entityRates) := by
  unfold enforced
  rw [policyDeletes_eq, after_append, buckets_bucketDeletes]
  generalize htables : after (flowDeletes settings now) (t.deleteOverflow settings) = t'
  have hbuckets : t'.buckets = t.buckets := by
    rw [← htables, buckets_flowDeletes, buckets_deleteOverflow]
  obtain ⟨htraffic, hrest⟩ := Prod.ext_iff.mp hbuckets
  obtain ⟨hentity, hrates⟩ := Prod.ext_iff.mp hrest
  simp only [buckets] at htraffic hentity hrates
  rw [htraffic, hentity, hrates]

end Tables

namespace TrafficDb

variable (db : TrafficDb) (settings : Settings) (nowInstant : Instant) (now : SystemTime)

/-- The policy runs at most once in an interval of its own. -/
def policyDue : Bool :=
  !db.lastPolicyAt.any fun last => nowInstant.saturatingDurationSince last < policyInterval

/-- The state after the retention policy, due or not. -/
def enforced : TrafficDb :=
  if db.policyDue nowInstant then
    { db with
      flowCapacity := settings.resources.maxFlowEntries
      lastPolicyAt := some nowInstant
      tables := db.tables.enforced settings now }
  else { db with flowCapacity := settings.resources.maxFlowEntries }

variable {db settings nowInstant now}

theorem ends_forM_execute {statements : List (Tables → Tables)} : Ends (statements.forM execute)
    (fun _ s => s = { db with tables := Tables.after statements db.tables }) db := by
  refine .forM (I := fun done s => s = { db with tables := Tables.after done db.tables }) ?_ rfl
  rintro done f later _ - rfl
  refine ends_execute ?_
  rw [Tables.after_append]
  rfl

theorem ends_enforcePolicy : Ends (enforcePolicy settings nowInstant now)
    (fun _ s => s = db.enforced settings nowInstant now) db := by
  refine .bind (.modify (.bind (.get ?_)))
  simp only
  unfold enforced policyDue
  cases db.lastPolicyAt.any fun last =>
      decide (nowInstant.saturatingDurationSince last < policyInterval) with
  | true => exact .pure rfl
  | false =>
    refine .bind (.modify (.bind (ends_select ?_)))
    simp only [Bool.not_false, if_true]
    unfold Tables.enforced Tables.deleteOverflow Tables.overflow
    split
    · exact .bind (ends_execute ends_forM_execute)
    · exact ends_forM_execute

end TrafficDb

end ZimaScope
