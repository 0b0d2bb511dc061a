import ZimaScope.Api.Lists
import ZimaScope.Db.Reports

/-! # The overview

`Db::overview`: the counters of the flows seen in a range, the timeline of its
buckets, and the pages kept from the last seconds. Rates, the shares of
countries, networks and evidence, and the top lists are not part of it here, but
for the statements that read them.
-/

namespace ZimaScope

open TrafficDb

/-! ## Sums -/

def addChecked (sum value : ℤ) : Except ApiError ℤ :=
  if -2 ^ 63 ≤ sum + value ∧ sum + value < 2 ^ 63 then .ok (sum + value)
  else .error (.ofStorage "integer overflow")

/-- `SUM`, which fails when it leaves the 64 bits of a column. -/
def checkedSum (values : List ℤ) : Except ApiError ℤ := values.foldlM addChecked 0

/-- The counters of the flows of one direction, as the overview adds them up. -/
def directionCounters (direction : Direction) (rows : List FlowRow) : Except ApiError CountersDto := do
  let group := rows.filter fun row => row.key.direction = direction
  let packets ← checkedSum (group.map FlowRow.packets)
  let bytes ← checkedSum (group.map FlowRow.bytes)
  pure ⟨asU64 packets, asU64 bytes⟩

def overviewTotals (rows : List FlowRow) : Except ApiError DirectionTotalsDto := do
  let inbound ← directionCounters .inbound rows
  let outbound ← directionCounters .outbound rows
  pure ⟨inbound, outbound⟩

/-! ## The timeline -/

structure TimelinePointDto where
  start : ℤ
  inbound : CountersDto := ⟨0, 0⟩
  outbound : CountersDto := ⟨0, 0⟩
  deriving DecidableEq, Repr

structure TimelineDto where
  resolution : BucketResolution
  points : List TimelinePointDto
  deriving DecidableEq, Repr

/-- The buckets that show a range, and the milliseconds of each. -/
def TimeRange.buckets : TimeRange → BucketResolution × ℤ
  | minute15 | hour1 => (.minute, 60000)
  | hour24 | day7 => (.hour, 3600000)

/-- The multiples of a step from the first to the last. -/
def stepsFrom (first last step : ℤ) : List ℤ :=
  (List.range ((last - first) / step + 1).toNat).map fun i : ℕ => first + step * i

/-- The buckets of one entity, or those of the boundary. -/
def Tables.bucketRows (t : Tables) : Option EntityKey → List (TimeBucketKey × TimeBucket)
  | none => t.trafficBuckets.rows
  | some entity =>
    (t.entityBuckets.rows.filter fun r => r.1.entity = entity).map fun r => (r.1.bucket, r.2)

/-- The row of `GROUP BY start_ms`. -/
def sumPoint (start : ℤ) (rows : List TimeBucket) : Except ApiError TimelinePointDto := do
  let inPackets ← checkedSum (rows.map TimeBucket.inPackets)
  let inBytes ← checkedSum (rows.map TimeBucket.inBytes)
  let outPackets ← checkedSum (rows.map TimeBucket.outPackets)
  let outBytes ← checkedSum (rows.map TimeBucket.outBytes)
  pure ⟨start, ⟨asU64 inPackets, asU64 inBytes⟩, ⟨asU64 outPackets, asU64 outBytes⟩⟩

/-- The starts of the points of a range. -/
def TimeRange.starts (range : TimeRange) (now : SystemTime) : List ℤ :=
  let step := range.buckets.2
  stepsFrom (unixMillis (range.cutoff now) / step * step) (unixMillis now / step * step) step

/-- `Db::buckets_timeline`. -/
def bucketsTimeline (t : Tables) (range : TimeRange) (now : SystemTime) (entity : Option EntityKey)
    (interface : Option String) : Except ApiError TimelineDto := do
  let (resolution, step) := range.buckets
  let last := unixMillis now / step * step
  let first := unixMillis (range.cutoff now) / step * step
  let rows := (t.bucketRows entity).filter fun r =>
    r.1.resolution = resolution && (first ≤ r.1.startMs && r.1.startMs ≤ last) &&
      (trimmedText interface).all fun name => eqNoCase (some r.2.interface) name
  let points ← (groupBy (fun r => r.1.startMs) rows).mapM fun group =>
    sumPoint group.1 (group.2.map Prod.snd)
  pure {
    resolution
    points := (range.starts now).map fun start =>
      (points.find? fun point => point.start = start).getD { start } }

/-! ## The page -/

structure ProxiedTrafficDto where
  flows : ℕ
  bytes : ℕ
  flowsWithDomain : ℕ
  resolvedFlows : ℕ
  deriving DecidableEq, Repr

/-- Fake-IP traffic. -/
def proxiedTraffic (rows : List FlowRow) : Except ApiError ProxiedTrafficDto := do
  let rows := rows.filter fun row => row.profile.scope = .fakeIp
  let bytes ← checkedSum (rows.map FlowRow.bytes)
  pure {
    flows := rows.length
    bytes := asU64 bytes
    flowsWithDomain := rows.countP fun row => row.domainsJson ≠ []
    resolvedFlows := rows.countP fun row => row.profile.country.isSome }

structure OverviewDto where
  range : String
  /-- When the page is generated; it says so in milliseconds. -/
  now : SystemTime
  totals : DirectionTotalsDto
  timeline : TimelineDto
  activeFlows : ℕ
  flowsWithDomain : ℕ
  flowsTotal : ℕ
  proxied : ProxiedTrafficDto

def OverviewDto.generatedAt (o : OverviewDto) : ℤ := unixMillis o.now

def TimeRange.asStr : TimeRange → String
  | minute15 => "15m"
  | hour1 => "1h"
  | hour24 => "24h"
  | day7 => "7d"

namespace TrafficDb

/-- A statement whose sums may overflow. -/
def selectSums {α : Type} (f : Tables → Except ApiError α) : Action α := do
  let result ← select f
  .ofExcept result

/-- Statements whose answers are not part of the page here. -/
def readAside (count : ℕ) : Action Unit := (List.replicate count ()).forM fun _ => select fun _ => ()

/-- `Db::overview` when no page is kept. -/
def computeOverview (range : TimeRange) (excludeScope : List AddressScope)
    (interface : Option String) (now : SystemTime) : Action OverviewDto := do
  let query : FlowQuery := { range := some range, interface, excludeScope }
  let clauses ← .ofExcept (query.clauses now true)
  let rows := fun t : Tables => (t.flowsWhere clauses).map Prod.snd
  let totals ← selectSums fun t => overviewTotals (rows t)
  let (flowsTotal, flowsWithDomain, activeFlows) ← select fun t =>
    ((rows t).length, (rows t).countP fun row => row.domainsJson ≠ [],
      (rows t).countP fun row => row.state = .active)
  -- Countries, networks and evidence.
  readAside 3
  let proxied ← selectSums fun t => proxiedTraffic (rows t)
  let timeline ← selectSums fun t => bucketsTimeline t range now none interface
  -- The top endpoints and domains, each with its number.
  readAside 4
  pure {
    range := range.asStr, now, totals, timeline, activeFlows, flowsWithDomain, flowsTotal, proxied }

end TrafficDb

/-! ## Kept pages -/

structure OverviewPage where
  cachedAt : Instant
  overview : OverviewDto

abbrev OverviewPages := HashMap String OverviewPage

def overviewPageCacheTtl : Duration := fromSecs 2

def overviewPageCacheCapacity : ℕ := 16

def overviewPageKey (range : TimeRange) (excludeScope : List AddressScope)
    (interface : Option String) : String :=
  let scopes := (excludeScope.map AddressScope.value).insertionSort (· ≤ ·)
  range.asStr ++ "|" ++ ",".intercalate scopes ++ "|" ++ interface.getD ""

def OverviewPages.store (pages : OverviewPages) (key : String) (page : OverviewPage) :
    OverviewPages :=
  (if overviewPageCacheCapacity ≤ pages.entries.length then ∅ else pages).insert key page

/-- `Db::overview`, with the times at which it looks for a page and keeps one. -/
def TrafficDb.overview (range : TimeRange) (excludeScope : List AddressScope)
    (interface : Option String) (now : SystemTime) (lookedUpAt storedAt : Instant)
    (pages : OverviewPages) : Action (OverviewDto × OverviewPages) := do
  let key := overviewPageKey range excludeScope interface
  match (AList.lookup key pages).filter fun page =>
      lookedUpAt.saturatingDurationSince page.cachedAt < overviewPageCacheTtl with
  | some page => pure (page.overview, pages)
  | none => do
    let overview ← computeOverview range excludeScope interface now
    pure (overview, pages.store key ⟨storedAt, overview⟩)

/-! ## What the page counts -/

def DirectionTotalsDto.counters (totals : DirectionTotalsDto) : Counters :=
  (totals.inbound.packets, totals.inbound.bytes, totals.outbound.packets, totals.outbound.bytes)

def TimelinePointDto.counters (point : TimelinePointDto) : Counters :=
  (point.inbound.packets, point.inbound.bytes, point.outbound.packets, point.outbound.bytes)

section Sums

variable {values : List ℤ} {sum start : ℤ} {rows : List FlowRow} {buckets : List TimeBucket}

theorem foldlM_addChecked {acc : ℤ} (hacc : acc < 2 ^ 63)
    (h : values.foldlM addChecked acc = .ok sum) : sum = acc + values.sum ∧ sum < 2 ^ 63 := by
  induction values generalizing acc with
  | nil =>
    obtain rfl : acc = sum := Except.ok.inj h
    exact ⟨(add_zero _).symm, hacc⟩
  | cons value values ih =>
    rw [List.foldlM_cons, Except.bind_eq_ok] at h
    obtain ⟨acc', hstep, hrest⟩ := h
    unfold addChecked at hstep
    split at hstep
    · next hfits =>
      obtain rfl := Except.ok.inj hstep
      rw [List.sum_cons, ← add_assoc]
      exact ih hfits.2 hrest
    · exact absurd hstep (by simp)

theorem checkedSum_eq_ok (h : checkedSum values = .ok sum) : sum = values.sum ∧ sum < 2 ^ 63 := by
  have hsum := foldlM_addChecked (by norm_num) h
  rwa [zero_add] at hsum

theorem asU64_checkedSum (h : checkedSum values = .ok sum) (hnonneg : 0 ≤ values.sum) :
    (asU64 sum : ℤ) = values.sum := by
  obtain ⟨rfl, hlt⟩ := checkedSum_eq_ok h
  exact asU64_eq_iff.mpr ⟨hnonneg, by omega⟩

theorem sum_counters : (rows.map FlowRow.counters).sum =
    (((rows.filter fun row => row.key.direction = .inbound).map FlowRow.packets).sum,
      ((rows.filter fun row => row.key.direction = .inbound).map FlowRow.bytes).sum,
      ((rows.filter fun row => row.key.direction = .outbound).map FlowRow.packets).sum,
      ((rows.filter fun row => row.key.direction = .outbound).map FlowRow.bytes).sum) := by
  induction rows with
  | nil => rfl
  | cons row rows ih =>
    rw [List.map_cons, List.sum_cons, ih]
    unfold FlowRow.counters
    cases hdirection : row.key.direction <;>
      simp [hdirection, Credit.counters, FlowRow.credit]

theorem sum_bucketCounters : (buckets.map TimeBucket.counters).sum =
    ((buckets.map TimeBucket.inPackets).sum, (buckets.map TimeBucket.inBytes).sum,
      (buckets.map TimeBucket.outPackets).sum, (buckets.map TimeBucket.outBytes).sum) := by
  induction buckets with
  | nil => rfl
  | cons bucket buckets ih =>
    rw [List.map_cons, List.sum_cons, ih]
    rfl

theorem directionCounters_eq {direction : Direction} {counters : CountersDto}
    (h : directionCounters direction rows = .ok counters)
    (hnonneg : ∀ row ∈ rows, 0 ≤ row.credit) :
    ((counters.packets : ℤ), (counters.bytes : ℤ)) =
      (((rows.filter fun row => row.key.direction = direction).map FlowRow.packets).sum,
        ((rows.filter fun row => row.key.direction = direction).map FlowRow.bytes).sum) := by
  unfold directionCounters at h
  simp only [Except.bind_eq_ok] at h
  obtain ⟨packets, hpackets, bytes, hbytes, hcounters⟩ := h
  obtain rfl := Except.ok.inj hcounters
  simp only [Prod.mk.injEq]
  constructor
  · refine asU64_checkedSum hpackets (List.sum_nonneg fun x hx => ?_)
    obtain ⟨row, hrow, rfl⟩ := List.mem_map.mp hx
    exact (hnonneg row (List.mem_of_mem_filter hrow)).1
  · refine asU64_checkedSum hbytes (List.sum_nonneg fun x hx => ?_)
    obtain ⟨row, hrow, rfl⟩ := List.mem_map.mp hx
    exact (hnonneg row (List.mem_of_mem_filter hrow)).2

theorem overviewTotals_eq {totals : DirectionTotalsDto} (h : overviewTotals rows = .ok totals)
    (hnonneg : ∀ row ∈ rows, 0 ≤ row.credit) :
    totals.counters = (rows.map FlowRow.counters).sum := by
  unfold overviewTotals at h
  simp only [Except.bind_eq_ok] at h
  obtain ⟨inbound, hinbound, outbound, houtbound, htotals⟩ := h
  obtain rfl := Except.ok.inj htotals
  have hin := directionCounters_eq hinbound hnonneg
  have hout := directionCounters_eq houtbound hnonneg
  rw [sum_counters]
  unfold DirectionTotalsDto.counters
  simp only [Prod.mk.injEq] at hin hout ⊢
  exact ⟨hin.1, hin.2, hout.1, hout.2⟩

theorem sumPoint_eq {point : TimelinePointDto} (h : sumPoint start buckets = .ok point) :
    point.start = start ∧ (0 ≤ (buckets.map TimeBucket.counters).sum →
      point.counters = (buckets.map TimeBucket.counters).sum) := by
  unfold sumPoint at h
  simp only [Except.bind_eq_ok] at h
  obtain ⟨inPackets, h₁, inBytes, h₂, outPackets, h₃, outBytes, h₄, hpoint⟩ := h
  obtain rfl := Except.ok.inj hpoint
  refine ⟨rfl, ?_⟩
  rw [sum_bucketCounters]
  rintro ⟨hnonneg₁, hnonneg₂, hnonneg₃, hnonneg₄⟩
  unfold TimelinePointDto.counters
  simp only [Prod.mk.injEq]
  exact ⟨asU64_checkedSum h₁ hnonneg₁, asU64_checkedSum h₂ hnonneg₂,
    asU64_checkedSum h₃ hnonneg₃, asU64_checkedSum h₄ hnonneg₄⟩

end Sums

section Timeline

variable {range : TimeRange} {now : SystemTime} {t : Tables} {start : ℤ}

theorem mem_stepsFrom {first last step : ℤ} (hstep : 0 < step) :
    start ∈ stepsFrom first last step ↔ first ≤ start ∧ start ≤ last ∧ step ∣ start - first := by
  unfold stepsFrom
  simp only [List.mem_map, List.mem_range]
  constructor
  · rintro ⟨i, hi, rfl⟩
    have hcount : (i : ℤ) ≤ (last - first) / step := by omega
    have hlast : step * i ≤ last - first := by
      rw [mul_comm]
      exact (Int.le_ediv_iff_mul_le hstep).mp hcount
    have hfirst : 0 ≤ step * (i : ℤ) := mul_nonneg hstep.le (Int.natCast_nonneg i)
    exact ⟨by omega, by omega, by simp⟩
  · rintro ⟨hfirst, hlast, i, hi⟩
    have hnonneg : 0 ≤ i := by
      by_contra hneg
      have := Int.mul_neg_of_pos_of_neg hstep (not_le.mp hneg)
      omega
    have hcount : i ≤ (last - first) / step := by
      rw [Int.le_ediv_iff_mul_le hstep, mul_comm]
      omega
    exact ⟨i.toNat, by omega, by rw [Int.toNat_of_nonneg hnonneg]; omega⟩

theorem TimeRange.step_pos (range : TimeRange) : 0 < range.buckets.2 := by
  cases range <;> decide

/-- The point that a start is looked up as. -/
theorem find?_points {groups : List (ℤ × List (TimeBucketKey × TimeBucket))}
    {points : List TimelinePointDto}
    (h : groups.mapM (fun group => sumPoint group.1 (group.2.map Prod.snd)) = .ok points)
    (start : ℤ) :
    (∃ group ∈ groups, group.1 = start ∧ ∃ point,
      sumPoint start (group.2.map Prod.snd) = .ok point ∧
        (points.find? fun point => point.start = start) = some point) ∨
      (∀ group ∈ groups, group.1 ≠ start) ∧
        (points.find? fun point => point.start = start) = none := by
  induction groups generalizing points with
  | nil =>
    obtain rfl : [] = points := Except.ok.inj h
    exact Or.inr ⟨by simp, rfl⟩
  | cons group groups ih =>
    rw [List.mapM_cons, Except.bind_eq_ok] at h
    obtain ⟨point, hpoint, h⟩ := h
    obtain ⟨rest, hrest, h⟩ := Except.bind_eq_ok.mp h
    obtain rfl := Except.ok.inj h
    have hstart := (sumPoint_eq hpoint).1
    by_cases hgroup : group.1 = start
    · subst hgroup
      refine Or.inl ⟨group, List.mem_cons_self, rfl, point, hpoint, ?_⟩
      rw [List.find?_cons_of_pos (by simpa using hstart)]
    · rw [List.find?_cons_of_neg (by simpa [hstart] using hgroup)]
      rcases ih hrest with ⟨other, hother, hfound⟩ | ⟨hnone, hfind⟩
      · exact Or.inl ⟨other, List.mem_cons_of_mem _ hother, hfound⟩
      · exact Or.inr ⟨List.forall_mem_cons.mpr ⟨hgroup, hnone⟩, hfind⟩

/-- The rows of one start hold what its buckets hold together. -/
theorem sum_filter_start {rows : List (TimeBucketKey × TimeBucket)} {b : BucketResolution × ℤ}
    {p : TimeBucketKey × TimeBucket → Bool}
    (hrows : ∀ r ∈ t.trafficBuckets.rows, (p r && decide (r.1.startMs = b.2)) = true ↔
      (r.1.resolution, r.1.startMs) = b) (h : rows = t.trafficBuckets.rows.filter p) :
    (((rows.filter fun r => r.1.startMs = b.2).map Prod.snd).map TimeBucket.counters).sum =
      bucketTotal t.trafficBuckets b := by
  have htotal : bucketTotal t.trafficBuckets b = Ledger.sumIf
      (fun r : TimeBucketKey × TimeBucket => (r.1.resolution, r.1.startMs) = b)
      (fun r => r.2.counters) t.trafficBuckets.rows := rfl
  rw [htotal, Ledger.sumIf_eq_filter, h, List.filter_filter, List.map_map]
  refine congrArg (fun rows => List.sum (List.map _ rows)) (List.filter_congr fun r hr => ?_)
  rw [Bool.and_comm, Bool.eq_iff_iff, decide_eq_true_iff]
  exact hrows r hr

/-- The timeline of the boundary has a point for every start, worth what the buckets hold. -/
theorem bucketsTimeline_eq {interface : Option String} {timeline : TimelineDto}
    (h : bucketsTimeline t range now none interface = .ok timeline)
    (hinterface : trimmedText interface = none) :
    timeline.points.map TimelinePointDto.start = range.starts now ∧
      ∀ point ∈ timeline.points,
        0 ≤ bucketTotal t.trafficBuckets (range.buckets.1, point.start) →
          point.counters = bucketTotal t.trafficBuckets (range.buckets.1, point.start) := by
  unfold bucketsTimeline at h
  simp only [hinterface, Option.all_none, Bool.and_true] at h
  obtain ⟨points, hpoints, htimeline⟩ := Except.bind_eq_ok.mp h
  obtain rfl := Except.ok.inj htimeline
  generalize hrows : (t.bucketRows none).filter _ = rows at hpoints
  have hfound : ∀ start ∈ range.starts now,
      ((points.find? fun point => point.start = start).getD { start }).start = start ∧
        (0 ≤ bucketTotal t.trafficBuckets (range.buckets.1, start) →
          ((points.find? fun point => point.start = start).getD { start }).counters =
            bucketTotal t.trafficBuckets (range.buckets.1, start)) := by
    intro start hstart
    obtain ⟨hfirst, hlast, -⟩ := (mem_stepsFrom range.step_pos).mp hstart
    have hsum : (((rows.filter fun r => r.1.startMs = start).map Prod.snd).map
        TimeBucket.counters).sum = bucketTotal t.trafficBuckets (range.buckets.1, start) := by
      refine sum_filter_start (b := (range.buckets.1, start)) (fun r _ => ?_) hrows.symm
      simp only [Bool.and_eq_true, decide_eq_true_eq, Prod.mk.injEq]
      constructor
      · rintro ⟨⟨hresolution, -⟩, hstart⟩
        exact ⟨hresolution, hstart⟩
      · rintro ⟨hresolution, rfl⟩
        exact ⟨⟨hresolution, hfirst, hlast⟩, rfl⟩
    rcases find?_points hpoints start with ⟨group, hgroup, hkey, point, hpoint, hfind⟩ | ⟨hnone, hfind⟩
    · obtain ⟨-, hmembers⟩ := mem_groupBy.mp hgroup
      rw [hmembers, hkey] at hpoint
      rw [hfind, Option.getD_some, ← hsum]
      exact sumPoint_eq hpoint
    · rw [hfind, Option.getD_none, ← hsum]
      have hempty : (rows.filter fun r => r.1.startMs = start) = [] := by
        refine List.filter_eq_nil_iff.mpr fun r hr hstart => ?_
        exact hnone (start, rows.filter fun r => r.1.startMs = start)
          (mem_groupBy.mpr ⟨⟨r, hr, of_decide_eq_true hstart⟩, rfl⟩) rfl
      rw [hempty]
      exact ⟨rfl, fun _ => rfl⟩
  constructor
  · rw [List.map_map]
    refine (List.map_congr_left fun start hstart => ?_).trans (List.map_id _)
    exact (hfound start hstart).1
  · intro point hpoint
    obtain ⟨start, hstart, rfl⟩ := List.mem_map.mp hpoint
    rw [(hfound start hstart).1]
    exact (hfound start hstart).2

end Timeline

/-! ## Pages computed and kept -/

section Pages

variable {range range' : TimeRange} {excludeScope : List AddressScope} {interface : Option String}
  {now : SystemTime} {lookedUpAt storedAt : Instant} {pages : OverviewPages} {db : TrafficDb}
  {key key' : String} {page page' : OverviewPage}

/-- What a page says of the tables that it is computed from. -/
structure OverviewDto.Tells (o : OverviewDto) (t : Tables) (range : TimeRange)
    (excludeScope : List AddressScope) (interface : Option String) : Prop where
  totals : ∃ clauses,
    ({ range := some range, interface, excludeScope } : FlowQuery).clauses o.now true = .ok clauses ∧
      overviewTotals ((t.flowsWhere clauses).map Prod.snd) = .ok o.totals
  timeline : bucketsTimeline t range o.now none interface = .ok o.timeline

theorem TrafficDb.ends_selectSums {α : Type} {f : Tables → Except ApiError α}
    {Q : α → TrafficDb → Prop} (h : ∀ a, f db.tables = .ok a → Q a db) :
    Storage.Ends (selectSums f) Q db :=
  .bind (ends_select (.ofExcept h))

theorem TrafficDb.ends_readAside {count : ℕ} {Q : Unit → TrafficDb → Prop} (h : Q () db) :
    Storage.Ends (readAside count) Q db := by
  refine (Storage.Ends.forM (I := fun _ s => s = db) ?_ rfl).mono ?_
  · rintro _ _ _ _ - rfl
    exact ends_select rfl
  · rintro _ _ rfl
    exact h

theorem TrafficDb.ends_computeOverview :
    Storage.Ends (computeOverview range excludeScope interface now)
    (fun o s => s = db ∧ o.now = now ∧ o.Tells db.tables range excludeScope interface) db := by
  refine .bind (.ofExcept fun clauses hclauses => ?_)
  refine .bind (ends_selectSums fun totals htotals => ?_)
  refine .bind (ends_select (.bind (ends_readAside ?_)))
  refine .bind (ends_selectSums fun proxied _ => ?_)
  refine .bind (ends_selectSums fun timeline htimeline => ?_)
  exact .bind (ends_readAside (.pure ⟨rfl, rfl, ⟨clauses, hclauses, htotals⟩, htimeline⟩))

/-- A page is a kept one, or is computed and kept. -/
theorem TrafficDb.ends_overview :
    Storage.Ends (overview range excludeScope interface now lookedUpAt storedAt pages)
      (fun answer s => s = db ∧
        ((answer.2 = pages ∧ ∃ page, page.overview = answer.1 ∧
            AList.lookup (overviewPageKey range excludeScope interface) pages = some page) ∨
          answer.1.now = now ∧ answer.1.Tells db.tables range excludeScope interface ∧ answer.2 =
            pages.store (overviewPageKey range excludeScope interface) ⟨storedAt, answer.1⟩)) db := by
  unfold overview
  simp only
  split
  · next page hpage =>
    exact .pure ⟨rfl, Or.inl ⟨rfl, page, rfl, (Option.filter_eq_some_iff.mp hpage).1⟩⟩
  · refine .bind (ends_computeOverview.mono ?_)
    rintro o _ ⟨rfl, hnow, htells⟩
    exact .pure ⟨rfl, Or.inr ⟨hnow, htells, rfl⟩⟩

theorem OverviewPages.lookup_store (h : AList.lookup key' (pages.store key page) = some page') :
    key' = key ∧ page' = page ∨ AList.lookup key' pages = some page' := by
  unfold store at h
  by_cases hkey : key' = key
  · subst hkey
    rw [AList.lookup_insert] at h
    exact Or.inl ⟨rfl, (Option.some.inj h).symm⟩
  · rw [AList.lookup_insert_ne hkey] at h
    split at h
    · simp at h
    · exact Or.inr h

theorem TimeRange.takeWhile_asStr (range : TimeRange) (rest : List Char) :
    (range.asStr.toList ++ '|' :: rest).takeWhile (· ≠ '|') = range.asStr.toList := by
  cases range <;> simp [asStr]

/-- No scope goes by an empty text. -/
theorem intercalate_scopes_eq_nil {scopes : List String}
    (hscopes : ∀ text ∈ scopes, ∃ scope : AddressScope, scope.value = text) :
    (",".intercalate scopes).toList = [] ↔ scopes = [] := by
  cases scopes with
  | nil => simp
  | cons text scopes =>
    obtain ⟨scope, rfl⟩ := hscopes text List.mem_cons_self
    have hne : scope.value.toList ≠ [] := by cases scope <;> simp [AddressScope.value]
    cases scopes with
    | nil => simpa using hne
    | cons text scopes =>
      rw [String.intercalate_cons_cons, String.toList_append, String.toList_append]
      simp

/-- A page of the whole boundary is kept under the key of its range alone. -/
theorem overviewPageKey_eq (h : overviewPageKey range excludeScope interface =
    overviewPageKey range' [] none) :
    range = range' ∧ excludeScope = [] ∧ interface.getD "" = "" := by
  generalize hsorted : (excludeScope.map AddressScope.value).insertionSort (· ≤ ·) = sorted
  have htexts : range.asStr.toList ++ '|' :: ((",".intercalate sorted).toList ++
      '|' :: (interface.getD "").toList) = range'.asStr.toList ++ '|' :: ['|'] := by
    have h := congrArg String.toList h
    unfold overviewPageKey at h
    simpa [hsorted] using h
  have hrange : range = range' := by
    have hprefix := congrArg (List.takeWhile (· ≠ '|')) htexts
    rw [range.takeWhile_asStr, range'.takeWhile_asStr] at hprefix
    revert hprefix
    cases range <;> cases range' <;> decide
  subst hrange
  obtain ⟨-, hrest⟩ := List.cons.inj (List.append_cancel_left htexts)
  have hlengths := congrArg List.length hrest
  rw [List.length_append, List.length_cons, List.length_singleton] at hlengths
  have hscopes : ∀ text ∈ sorted, ∃ scope : AddressScope, scope.value = text := by
    intro text htext
    rw [← hsorted, List.mem_insertionSort] at htext
    obtain ⟨scope, -, hscope⟩ := List.mem_map.mp htext
    exact ⟨scope, hscope⟩
  have hempty : sorted = [] :=
    (intercalate_scopes_eq_nil hscopes).mp (List.length_eq_zero_iff.mp (by omega))
  refine ⟨rfl, ?_, String.toList_eq_nil_iff.mp (List.length_eq_zero_iff.mp (by omega))⟩
  simpa using congrArg List.length (hsorted.trans hempty)

end Pages

end ZimaScope
