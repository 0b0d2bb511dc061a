import ZimaScope.Api.Overview

/-! # What a range counts

The overview of a range adds up all that the flows seen in the range carried,
while its timeline reads the buckets of the range. Over a run of ingests and of
overviews, the totals are those of the range exactly if no flow that is seen in
it carried traffic in a batch that is not of it.
-/

namespace ZimaScope

open TrafficDb Ledger

/-- A database and the pages kept of it, beside the batches that it ingested. -/
structure Dashboard where
  db : TrafficDb
  pages : OverviewPages
  batches : List IngestInput

/-- The pages that an ingest keeps. -/
def IngestInput.keptPages (input : IngestInput) (pages : OverviewPages) : OverviewPages :=
  if input.batch.flows ≠ [] ∨ input.batch.domains ≠ [] then ∅ else pages

/-- A batch whose time has milliseconds, of packets seen in the collection interval before it. -/
structure IngestInput.Timely (interval : Duration) (input : IngestInput) : Prop where
  dated : 0 ≤ input.batch.collectedAt ∧ input.batch.collectedAt < 2 ^ 63 * 1000000
  prompt : ∀ report ∈ input.reports, report.moved = true →
    input.batch.collectedAt - interval ≤ report.lastSeen

/-- An ingest that succeeds, evicts no flow and continues the counters, or an overview. -/
inductive DashboardStep (flowId : FlowKey → UInt64) (interval : Duration) :
    Dashboard → Dashboard → Prop
  | ingest {s : Dashboard} {input : IngestInput} {faults : List (Option String)}
      {event : StreamEvent} {c : Conn TrafficDb}
      (h : tryIngest flowId input ⟨s.db, faults⟩ = (.ok event, c))
      (hcontinue : FlowsContinue flowId input s.db) (htimely : input.Timely interval) :
      DashboardStep flowId interval s ⟨c.store, input.keptPages s.pages, s.batches ++ [input]⟩
  | overview {s : Dashboard} {range : TimeRange} {excludeScope : List AddressScope}
      {interface : Option String} {now : SystemTime} {lookedUpAt storedAt : Instant}
      {faults : List (Option String)} {o : OverviewDto} {pages : OverviewPages} {c : Conn TrafficDb}
      (h : overview range excludeScope interface now lookedUpAt storedAt s.pages ⟨s.db, faults⟩ =
        (.ok (o, pages), c)) :
      DashboardStep flowId interval s ⟨c.store, pages, s.batches⟩

def dashboards (flowId : FlowKey → UInt64) (interval : Duration) : System Dashboard where
  init s := s.db.tables = {} ∧ s.pages = ∅ ∧ s.batches = []
  step := DashboardStep flowId interval

/-! ## The range of a page -/

section Range

variable (flowId : FlowKey → UInt64) (batches : List IngestInput) (range : TimeRange)
  (now : SystemTime)

/-- The batch was collected in the range. -/
def Report.Within (report : Report) : Prop :=
  range.cutoff now ≤ report.1.batch.collectedAt ∧ report.1.batch.collectedAt ≤ now

instance : DecidablePred (Report.Within range now) := fun _ => inferInstanceAs (Decidable (_ ∧ _))

/-- A packet of the flow was seen since the range began. -/
def SeenSince (id : UInt64) : Prop :=
  ∃ report ∈ reportsOf batches, flowId report.2.key = id ∧
    unixMillis (range.cutoff now) ≤ unixMillis report.lastSeen

instance : DecidablePred (SeenSince flowId batches range now) := fun _ =>
  inferInstanceAs (Decidable (∃ report ∈ reportsOf batches, _ ∧ _))

/-- A flow that is seen in the range carried traffic in a batch that is not of it. -/
def CarriedOver : Prop :=
  ∃ report ∈ reportsOf batches, report.moved = true ∧ ¬ report.Within range now ∧
    SeenSince flowId batches range now (flowId report.2.key)

/-- No batch is collected, and no packet seen, within a collection interval of the time that the
range begins at. -/
structure Clear (interval : Duration) : Prop where
  collected : ∀ input ∈ batches, (interval : ℤ) < |input.batch.collectedAt - range.cutoff now|
  seen : ∀ report ∈ reportsOf batches, (interval : ℤ) < |report.lastSeen - range.cutoff now|

/-- The totals are those of the batches of the range, and no more than the timeline has. -/
structure OverviewDto.CountsRange (o : OverviewDto) : Prop where
  totals : o.totals.counters = sumIf (Report.Within range o.now) Report.counters (reportsOf batches)
  timeline : o.totals.counters ≤ (o.timeline.points.map TimelinePointDto.counters).sum

/-- A page of the whole boundary, computed from tables that these batches led to. -/
structure OverviewDto.Answers (o : OverviewDto) : Prop where
  tells : ∃ t : Tables, ∃ interface, RowsTold flowId (reportsOf batches) t.flows ∧
    BucketsTold batches t.trafficBuckets ∧ interface.getD "" = "" ∧ o.Tells t range [] interface

end Range

section Pages

variable {flowId : FlowKey → UInt64} {batches : List IngestInput} {range : TimeRange}
  {now : SystemTime} {interval : Duration} {interface : Option String} {o : OverviewDto}
  {report : Report} {input : IngestInput}

theorem unixMillis_mono {time time' : ℤ} (h : time ≤ time') :
    unixMillis time ≤ unixMillis time' := by
  unfold unixMillis
  by_cases hafter : 0 ≤ time
  · rw [if_pos hafter, if_pos (hafter.trans h)]
    omega
  · rw [if_neg hafter]
    by_cases hafter' : 0 ≤ time'
    · rw [if_pos hafter']
      omega
    · rw [if_neg hafter']
      omega

theorem trimmedText_eq_none (h : interface.getD "" = "") : trimmedText interface = none := by
  cases interface with
  | none => rfl
  | some name =>
    obtain rfl : name = "" := h
    decide

/-- Without other filters, flows are chosen by when they were last seen. -/
theorem clauses_overview (h : interface.getD "" = "") :
    ({ range := some range, interface } : FlowQuery).clauses now true =
      .ok [fun _ row => unixMillis (range.cutoff now) ≤ row.lastSeenMs] := by
  have htrimmed := trimmedText_eq_none h
  unfold FlowQuery.clauses FlowQuery.windowClauses FlowQuery.associationClauses
  rw [htrimmed]
  rfl

theorem OverviewDto.Answers.totals_eq (h : o.Answers flowId batches range) :
    o.totals.counters =
      sumIf (fun report => SeenSince flowId batches range o.now (flowId report.2.key))
        Report.counters (reportsOf batches) := by
  obtain ⟨t, interface, hrows, -, hinterface, htells⟩ := h.tells
  obtain ⟨clauses, hclauses, htotals⟩ := htells.totals
  rw [clauses_overview hinterface] at hclauses
  obtain rfl := Except.ok.inj hclauses
  have hseen : ∀ id row, t.flows.find id = some row →
      (unixMillis (range.cutoff o.now) ≤ row.lastSeenMs ↔ SeenSince flowId batches range o.now id) := by
    intro id row hrow
    rw [(hrows.told id row hrow).lastSeen]
    unfold reportsFor SeenSince
    simp only [List.mem_filter, decide_eq_true_eq, and_assoc]
  have hcredit : ∀ row ∈ (t.flowsWhere [fun _ row =>
      unixMillis (range.cutoff o.now) ≤ row.lastSeenMs]).map Prod.snd, 0 ≤ row.credit := by
    intro row hrow
    obtain ⟨r, hr, rfl⟩ := List.mem_map.mp hrow
    exact hrows.credit_nonneg (Table.find_eq_some_iff.mpr (List.mem_of_mem_filter hr))
  have htotal : (((t.flowsWhere [fun _ row =>
      unixMillis (range.cutoff o.now) ≤ row.lastSeenMs]).map Prod.snd).map FlowRow.counters).sum =
        (t.flows.filter fun _ row => unixMillis (range.cutoff o.now) ≤ row.lastSeenMs).total
          fun _ row => row.counters := by
    unfold Tables.flowsWhere Table.total Table.filter
    simp only [List.all_cons, List.all_nil, Bool.and_true, List.map_map]
    rfl
  rw [overviewTotals_eq htotals hcredit, htotal, Table.total_filter,
    ← total_sumIf (f := fun report : Report => flowId report.2.key) hrows.present]
  refine Table.total_congr fun id row hrow => ?_
  rw [hrows.counters hrow]
  simp only [decide_eq_true_eq, hseen id row hrow]

theorem mem_starts {millis : ℤ} (hfirst : unixMillis (range.cutoff now) ≤ millis)
    (hlast : millis ≤ unixMillis now) :
    millis / range.buckets.2 * range.buckets.2 ∈ range.starts now := by
  have hstep := range.step_pos
  refine (mem_stepsFrom hstep).mpr ⟨?_, ?_, ?_⟩
  · exact mul_le_mul_of_nonneg_right (Int.ediv_le_ediv hstep hfirst) hstep.le
  · exact mul_le_mul_of_nonneg_right (Int.ediv_le_ediv hstep hlast) hstep.le
  · exact Int.dvd_sub (Int.dvd_mul_left _ _) (Int.dvd_mul_left _ _)

/-- Whole steps of a time are those of its milliseconds. -/
theorem bucketMillis_eq {time k : ℤ} (hk : 0 < k) (hafter : 0 ≤ time)
    (hbefore : time < 2 ^ 63 * 1000000) :
    min (max time 0 / 1000000000 / k * k * 1000) (2 ^ 63 - 1) =
      unixMillis time / (k * 1000) * (k * 1000) := by
  have hmillis : unixMillis time = time / 1000000 := by
    unfold unixMillis
    rw [if_pos hafter]
    omega
  have hseconds : max time 0 / 1000000000 = time / 1000000 / 1000 := by omega
  have hle : time / 1000000 / (k * 1000) * (k * 1000) ≤ time / 1000000 :=
    Int.ediv_mul_le _ (by omega)
  rw [hmillis, hseconds, Int.ediv_ediv_of_nonneg (by norm_num), mul_comm 1000 k, mul_assoc]
  omega

/-- The bucket of a batch that begins where a point of its millisecond does. -/
theorem mem_bucketStarts_floor (htimely : input.Timely interval) :
    (range.buckets.1, unixMillis input.batch.collectedAt / range.buckets.2 * range.buckets.2) ∈
      bucketStarts input := by
  obtain ⟨hafter, hbefore⟩ := htimely.dated
  have hminute : minuteStart input = unixMillis input.batch.collectedAt / 60000 * 60000 := by
    rw [minuteStart_eq]
    exact bucketMillis_eq (k := 60) (by norm_num) hafter hbefore
  have hhour : hourStart input = unixMillis input.batch.collectedAt / 3600000 * 3600000 := by
    rw [hourStart_eq]
    exact bucketMillis_eq (k := 3600) (by norm_num) hafter hbefore
  cases range
  case minute15 | hour1 => exact List.mem_cons.mpr (Or.inl (Prod.ext rfl hminute.symm))
  case hour24 | day7 =>
    exact List.mem_cons.mpr (Or.inr (List.mem_singleton.mpr (Prod.ext rfl hhour.symm)))

/-- The timeline has at least what was reported in the range. -/
theorem OverviewDto.Answers.timeline_le (h : o.Answers flowId batches range)
    (htimely : ∀ input ∈ batches, input.Timely interval)
    (hretained : ∀ start ∈ range.starts o.now, BucketsRetained batches (range.buckets.1, start)) :
    sumIf (Report.Within range o.now) Report.counters (reportsOf batches) ≤
      (o.timeline.points.map TimelinePointDto.counters).sum := by
  obtain ⟨t, interface, -, hbuckets, hinterface, htells⟩ := h.tells
  obtain ⟨hstarts, hpoints⟩ := bucketsTimeline_eq htells.timeline (trimmedText_eq_none hinterface)
  have hnonneg : ∀ report ∈ reportsOf batches, 0 ≤ report.counters :=
    fun report _ => report.counters_nonneg
  have hpoint : ∀ point ∈ o.timeline.points, point.counters =
      sumIf (fun report => (range.buckets.1, point.start) ∈ bucketStarts report.1) Report.counters
        (reportsOf batches) := by
    intro point hpoint
    have hstart : point.start ∈ range.starts o.now := hstarts ▸ List.mem_map_of_mem hpoint
    have htotal := hbuckets (range.buckets.1, point.start) (hretained _ hstart)
    rw [← htotal]
    apply hpoints point hpoint
    rw [htotal]
    exact sumIf_nonneg hnonneg
  rw [List.map_congr_left hpoint]
  refine sumIf_le_sum hnonneg fun report hreport hwithin => ?_
  have hstart := mem_starts (unixMillis_mono hwithin.1) (unixMillis_mono hwithin.2)
  rw [← hstarts] at hstart
  obtain ⟨point, hpoint, heq⟩ := List.mem_map.mp hstart
  refine ⟨point, hpoint, ?_⟩
  rw [heq]
  exact mem_bucketStarts_floor (htimely _ (mem_reportsOf.mp hreport).1)

/-- A flow that carried something in the range was seen in it. -/
theorem seenSince_of_within (hreport : report ∈ reportsOf batches)
    (htimely : report.1.Timely interval) (hclear : Clear batches range now interval)
    (hwithin : report.Within range now) (hmoved : report.moved = true) :
    SeenSince flowId batches range now (flowId report.2.key) := by
  obtain ⟨hinput, hflow⟩ := mem_reportsOf.mp hreport
  refine ⟨report, hreport, rfl, unixMillis_mono ?_⟩
  have hprompt := htimely.prompt report (List.mem_map.mpr ⟨report.2, hflow, rfl⟩) hmoved
  have hfar := hclear.collected report.1 hinput
  rw [abs_of_nonneg (sub_nonneg.mpr hwithin.1)] at hfar
  exact (le_sub_comm.mp hfar.le).trans hprompt

theorem OverviewDto.Answers.countsRange_iff (h : o.Answers flowId batches range)
    (htimely : ∀ input ∈ batches, input.Timely interval)
    (hclear : Clear batches range o.now interval)
    (hretained : ∀ start ∈ range.starts o.now, BucketsRetained batches (range.buckets.1, start)) :
    o.CountsRange batches range ↔ ¬ CarriedOver flowId batches range o.now := by
  have htotals : o.totals.counters =
      sumIf (Report.Within range o.now) Report.counters (reportsOf batches) ↔
        ¬ CarriedOver flowId batches range o.now := by
    rw [h.totals_eq, sumIf_eq_iff]
    · constructor
      · rintro hzero ⟨report, hreport, hmoved, houtside, hseen⟩
        have hstill := report.counters_eq_zero_iff.mp (hzero report hreport hseen houtside)
        exact Bool.false_ne_true (hstill.symm.trans hmoved)
      · intro hnone report hreport hseen houtside
        rw [report.counters_eq_zero_iff]
        by_contra hmoved
        exact hnone ⟨report, hreport, eq_true_of_ne_false hmoved, houtside, hseen⟩
    · exact fun report _ => report.counters_nonneg
    · intro report hreport hwithin hne
      apply seenSince_of_within hreport (htimely _ (mem_reportsOf.mp hreport).1) hclear hwithin
      rwa [Ne, report.counters_eq_zero_iff, Bool.not_eq_false] at hne
  rw [← htotals]
  constructor
  · exact OverviewDto.CountsRange.totals
  · intro heq
    exact ⟨heq, heq ▸ h.timeline_le htimely hretained⟩

end Pages

/-! ## Runs -/

section Runs

variable {flowId : FlowKey → UInt64} {interval : Duration} {s s' : Dashboard} {range : TimeRange}
  {batches : List IngestInput} {input : IngestInput} {pages : OverviewPages} {o : OverviewDto}

/-- The tables tell the batches, and so does every page of the whole boundary that is kept. -/
structure Dashboard.Inv (flowId : FlowKey → UInt64) (interval : Duration) (s : Dashboard) : Prop where
  rows : RowsTold flowId (reportsOf s.batches) s.db.tables.flows
  buckets : BucketsTold s.batches s.db.tables.trafficBuckets
  timely : ∀ input ∈ s.batches, input.Timely interval
  pages : ∀ range page, AList.lookup (overviewPageKey range [] none) s.pages = some page →
    page.overview.Answers flowId s.batches range

/-- A batch without flows does not change what a page answers. -/
theorem OverviewDto.Answers.concat (h : o.Answers flowId batches range)
    (hflows : input.batch.flows = []) :
    o.Answers flowId (batches ++ [input]) range := by
  obtain ⟨t, interface, hrows, hbuckets, hinterface, htells⟩ := h.tells
  have hreports : reportsOf (batches ++ [input]) = reportsOf batches := by
    rw [reportsOf_concat, IngestInput.reports, hflows, List.map_nil, List.append_nil]
  refine ⟨t, interface, hreports ▸ hrows, fun b hb => ?_, hinterface, htells⟩
  rw [hreports]
  exact hbuckets b fun other hother => hb other (List.mem_append_left _ hother)

theorem Dashboard.Inv.ingest {faults : List (Option String)} {event : StreamEvent}
    {c : Conn TrafficDb} (h : s.Inv flowId interval)
    (hrun : tryIngest flowId input ⟨s.db, faults⟩ = (.ok event, c))
    (hcontinue : FlowsContinue flowId input s.db) (htimely : input.Timely interval) :
    Dashboard.Inv flowId interval ⟨c.store, input.keptPages s.pages, s.batches ++ [input]⟩ := by
  obtain ⟨stored, touched, hinterval⟩ := ends_tryIngest.of_eq hrun rfl
  constructor
  · rw [reportsOf_concat]
    exact h.rows.step hcontinue hinterval
  · exact h.buckets.step hcontinue hinterval
  · intro other hother
    rcases List.mem_append.mp hother with hother | hother
    · exact h.timely other hother
    · rwa [List.mem_singleton.mp hother]
  · intro range page hpage
    unfold IngestInput.keptPages at hpage
    split at hpage
    · simp at hpage
    · next hempty =>
      exact (h.pages range page hpage).concat (not_not.mp (not_or.mp hempty).1)

/-- What an overview of the whole boundary answers. -/
theorem Dashboard.Inv.answers {now : SystemTime} {lookedUpAt storedAt : Instant}
    {faults : List (Option String)} {c : Conn TrafficDb} (h : s.Inv flowId interval)
    (hrun : overview range [] none now lookedUpAt storedAt s.pages ⟨s.db, faults⟩ =
      (.ok (o, pages), c)) : o.Answers flowId s.batches range := by
  obtain ⟨-, ⟨-, page, hpage, hlookup⟩ | ⟨-, htells, -⟩⟩ := ends_overview.of_eq hrun rfl
  · rw [← show page.overview = o from hpage]
    exact h.pages range page hlookup
  · exact ⟨s.db.tables, none, h.rows, h.buckets, rfl, htells⟩

theorem Dashboard.Inv.overview {excludeScope : List AddressScope} {interface : Option String}
    {now : SystemTime} {lookedUpAt storedAt : Instant} {faults : List (Option String)}
    {c : Conn TrafficDb} (h : s.Inv flowId interval)
    (hrun : overview range excludeScope interface now lookedUpAt storedAt s.pages ⟨s.db, faults⟩ =
      (.ok (o, pages), c)) : Dashboard.Inv flowId interval ⟨c.store, pages, s.batches⟩ := by
  obtain ⟨hstore, hanswer⟩ := ends_overview.of_eq hrun rfl
  rw [show c.store = s.db from hstore]
  refine ⟨h.rows, h.buckets, h.timely, ?_⟩
  intro range' page hpage
  rcases hanswer with ⟨hpages, -⟩ | ⟨-, htells, hpages⟩
  · rw [show pages = s.pages from hpages] at hpage
    exact h.pages range' page hpage
  · rw [show pages = s.pages.store _ _ from hpages] at hpage
    rcases OverviewPages.lookup_store hpage with ⟨hkey, rfl⟩ | hpage
    · obtain ⟨rfl, rfl, hinterface⟩ := overviewPageKey_eq hkey.symm
      exact ⟨s.db.tables, interface, h.rows, h.buckets, hinterface, htells⟩
    · exact h.pages range' page hpage

theorem Dashboard.inv (hr : (dashboards flowId interval).Reachable s) : s.Inv flowId interval := by
  refine hr.invariant ?_ ?_
  · rintro ⟨db, pages, batches⟩ ⟨hdb, rfl, rfl⟩
    have hflows : db.tables.flows = ∅ := congrArg Tables.flows hdb
    have hbuckets : db.tables.trafficBuckets = ∅ := congrArg Tables.trafficBuckets hdb
    refine ⟨⟨by simp [reportsOf], ?_, ?_⟩, ?_, by simp, by simp⟩
    · simp [hflows, Table.find_empty]
    · simp [hflows, Table.find_empty]
    · intro b _
      rw [hbuckets]
      rfl
  · intro s s' h hstep
    cases hstep with
    | ingest hrun hcontinue htimely => exact h.ingest hrun hcontinue htimely
    | overview hrun => exact h.overview hrun

end Runs

/-! ## A flow that goes on -/

theorem FlowsContinue.of_singleton {flowId : FlowKey → UInt64} {input : IngestInput} {db : TrafficDb}
    {update : Sighting} (hflows : input.batch.flows = [update])
    (hstays : ∀ r ∈ (expected input flowId db).flows.rows,
      (expected input flowId db).keptFlow input.settings input.nowSystem r.1 r.2 = true)
    (hcontinues : update.kernelTotal =
      credited ((db.tables.flows.find (flowId update.key)).map FlowRow.key)
        ((db.tables.flows.find (flowId update.key)).elim 0 FlowRow.credit)
        (sightingsOf flowId (flowId update.key) [update]))
    (hkeys : ∀ r ∈ db.tables.flows.rows, update.key = r.2.key)
    (hfits : update.flowDelta.counters ≤ maxCounters) : FlowsContinue flowId input db where
  stays id _ row hrow := hstays (id, row) (Table.find_eq_some_iff.mp hrow)
  continues last hlast _ := by
    rw [hflows] at hlast
    obtain rfl := List.mem_singleton.mp (finals_sublist.mem hlast)
    rw [hflows]
    exact hcontinues
  keys u hu v hv _ := by
    rw [hflows] at hu hv
    rw [List.mem_singleton.mp hu, List.mem_singleton.mp hv]
  rowKeys u hu row hrow := by
    rw [hflows] at hu
    rw [List.mem_singleton.mp hu]
    exact hkeys _ (Table.find_eq_some_iff.mp hrow)
  once := by
    rw [hflows]
    exact List.pairwise_singleton _ _
  fits ifindex := by
    rw [hflows, List.map_singleton, movedOn_singleton]
    split
    · exact hfits
    · decide

/-- The first batch of a flow, and one half an hour later. -/
def longFlowStart : IngestInput := lanInterval {} [lanUpdate ⟨1, 100⟩ ⟨1, 100⟩ .active]

def halfHourLater : IngestInput where
  batch := {
    collectedAt := 1700001800123456789
    flows := [{ lanUpdate ⟨1, 50⟩ ⟨2, 150⟩ .active with lastSeen := 1800000000005 }]
    domains := []
    attachedInterfaces := [(2, "eth0")] }
  settings := {}
  nowInstant := 1800000000010
  nowSystem := 1700001800123456789
  policyInstant := 1800000000011

/-- A minute after that. -/
def minuteAfter : SystemTime := 1700001860123456789

theorem reaches_longFlow : ∃ (s : Dashboard) (o : OverviewDto) (pages : OverviewPages)
    (c : Conn TrafficDb),
    (dashboards (fun _ => 7) (fromSecs 1)).Reachable s ∧
    s.batches = [longFlowStart, halfHourLater] ∧ o.now = minuteAfter ∧
      overview .minute15 [] none minuteAfter 0 0 s.pages ⟨s.db, []⟩ = (.ok (o, pages), c) := by
  obtain ⟨_, c₁, h₁⟩ := Storage.exists_of_isOk (c := ⟨{}, []⟩)
    (x := tryIngest (fun _ => 7) longFlowStart) (by decide +kernel)
  have hc₁ : c₁ = (tryIngest (fun _ => 7) longFlowStart ⟨{}, []⟩).2 := by rw [h₁]
  obtain ⟨_, c₂, h₂⟩ := Storage.exists_of_isOk (c := ⟨c₁.store, []⟩)
    (x := tryIngest (fun _ => 7) halfHourLater) (by rw [hc₁]; decide +kernel)
  have hc₂ : c₂ = (tryIngest (fun _ => 7) halfHourLater ⟨c₁.store, []⟩).2 := by rw [h₂]
  have hcontinue₁ : FlowsContinue (fun _ => 7) longFlowStart {} :=
    .of_singleton rfl (by decide +kernel) (by decide +kernel) (by decide +kernel) (by decide +kernel)
  have hcontinue₂ : FlowsContinue (fun _ => 7) halfHourLater c₁.store := by
    rw [hc₁]
    exact .of_singleton rfl (by decide +kernel) (by decide +kernel) (by decide +kernel)
      (by decide +kernel)
  have htimely₁ : longFlowStart.Timely (fromSecs 1) := ⟨by decide +kernel, by decide +kernel⟩
  have htimely₂ : halfHourLater.Timely (fromSecs 1) := ⟨by decide +kernel, by decide +kernel⟩
  have h0 : (dashboards (fun _ => 7) (fromSecs 1)).Reachable ⟨{}, ∅, []⟩ := .init ⟨rfl, rfl, rfl⟩
  have hr := (h0.step (.ingest h₁ hcontinue₁ htimely₁)).step (.ingest h₂ hcontinue₂ htimely₂)
  obtain ⟨⟨o, pages⟩, c, h⟩ := Storage.exists_of_isOk (c := ⟨c₂.store, []⟩)
    (x := overview .minute15 [] none minuteAfter 0 0 ∅) (by rw [hc₂, hc₁]; decide +kernel)
  refine ⟨_, o, pages, c, hr, rfl, ?_, h⟩
  obtain ⟨-, ⟨-, page, -, hpage⟩ | ⟨hnow, -⟩⟩ := ends_overview.of_eq h rfl
  · simp at hpage
  · exact hnow

theorem clear_longFlow :
    Clear [longFlowStart, halfHourLater] .minute15 minuteAfter (fromSecs 1) :=
  ⟨by decide +kernel, by decide +kernel⟩

theorem retained_longFlow : ∀ start ∈ TimeRange.minute15.starts minuteAfter,
    BucketsRetained [longFlowStart, halfHourLater] (TimeRange.minute15.buckets.1, start) := by
  unfold BucketsRetained
  decide +kernel

theorem carriedOver_longFlow :
    CarriedOver (fun _ => 7) [longFlowStart, halfHourLater] .minute15 minuteAfter := by
  unfold CarriedOver
  decide +kernel

end ZimaScope
