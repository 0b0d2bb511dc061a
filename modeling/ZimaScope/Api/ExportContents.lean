import ZimaScope.Api.Exports
import ZimaScope.Api.Filters

/-! # What an export holds

A JSON export reads flows, domains and profiles one after the other, each up to
the same number of records, and its flag tells of the flows only. It is whole
unless the flag says otherwise, and accepted whenever the CSV export is, exactly
if its domains and profiles are few enough and the lists of flows and domains
both know the sort.
-/

namespace ZimaScope

open Storage

/-! ## What is read -/

namespace Tables

variable (t : Tables)

def flowsPage (query : FlowQuery) (sort : Option String) (rates : Rates) (now : SystemTime)
    (limit offset : ℕ) : Except ApiError (List FlowDto × ℕ) := do
  let clauses ← query.clauses now true
  let order ← flowOrder t sort
  pure ((((((t.flowsWhere clauses).insertionSort order.le).drop offset).take limit).filterMap fun r =>
    TrafficDb.recordOf t r.1).map fun record => record.toDto rates, (t.flowsWhere clauses).length)

/-- The associations that a query selects, when its filters pass. -/
def joined (query : FlowQuery) (clauses : List FlowClause) : List DomainPair :=
  t.domainJoin.filter fun pair =>
    (clauses.all fun clause => clause pair.1.1 pair.1.2) && query.joinClauses pair.2

def domainPage (query : FlowQuery) (sort : Option String) (context : ExportContext)
    (now : SystemTime) (limit offset : ℕ) : Except ApiError (List DomainSummaryDto × ℕ) := do
  let clauses ← query.clauses now false
  let order ← domainOrder t context.bare sort
  pure (((((groupBy (fun pair => pair.2.domain) (t.joined query clauses)).insertionSort
    order.le).drop offset).take limit).map (domainSummary context.rates),
    ((t.joined query clauses).map fun pair => pair.2.domain).dedup.length)

def profiles (query : FlowQuery) (scan : List IpProfileDto → List IpProfileDto) (now : SystemTime) :
    Except ApiError (List IpProfileDto) := do
  let clauses ← query.clauses now true
  pure ((scan (distinctProfiles (t.flowsWhere clauses))).take exportMaxRecords)

/-- The document of a JSON export of these flows. -/
def exportDocument (request : CreateExportRequest) (context : ExportContext) (clock : ExportClock)
    (flows : List FlowDto) (truncated : Bool) : Except ApiError ExportDocument := do
  let domains ← t.domainPage request.query request.sort context clock.domains exportMaxRecords 0
  let profiles ← t.profiles request.query context.scan clock.created
  pure {
    generatedAt := unixMillis clock.created
    range := request.query.range.map TimeRange.asStr
    truncated
    flows
    domains := domains.1
    profiles
    health := context.health }

def exportBytes (request : CreateExportRequest) (context : ExportContext) (clock : ExportClock)
    (flows : List FlowDto) (truncated : Bool) : Except ApiError String :=
  match request.format with
  | .json => do
    let document ← t.exportDocument request context clock flows truncated
    (context.serialize document).mapError fun error => .internal s!"serialize export: {error}"
  | .csv => pure (exportCsv flows)

end Tables

/-- The document that a JSON export is the text of. -/
def Tables.documentOf (t : Tables) (request : CreateExportRequest) (context : ExportContext)
    (clock : ExportClock) : Except ApiError ExportDocument := do
  let page ← t.flowsPage request.query request.sort context.rates clock.flows exportMaxRecords 0
  t.exportDocument request context clock page.1 (page.1.length < page.2)

/-- The row that a creation stores. -/
def Db.rowOf (db : Db) (request : CreateExportRequest) (context : ExportContext)
    (clock : ExportClock) : Except ApiError ExportRow := do
  let page ← db.traffic.tables.flowsPage request.query request.sort context.rates clock.flows
    exportMaxRecords 0
  let truncated : Bool := page.1.length < page.2
  let content ← db.traffic.tables.exportBytes request context clock page.1 truncated
  pure {
    format := request.format
    range := request.query.range.map TimeRange.asStr
    createdAtMs := unixMillis clock.created
    expiresAtMs := unixMillis ((clock.created.checkedAdd db.exportTtl).getD clock.created)
    recordCount := page.1.length
    truncated
    contentType := request.format.contentType
    content }

section Queries

variable {request : CreateExportRequest} {context : ExportContext} {clock : ExportClock}
  {query : FlowQuery} {sort : Option String} {now : SystemTime} {limit offset : ℕ}

theorem computes_flowsPage {rates : Rates} : Computes (Db.flowsPage query sort rates now limit offset)
    fun db => db.traffic.tables.flowsPage query sort rates now limit offset :=
  .bind .ofExcept fun _ => .bind .query fun _ => .bind .get fun _ => .bind .ofExcept fun _ =>
    .bind .query fun _ => .pure

theorem computes_domainRows : Computes (Db.domainRows query sort context now limit offset)
    fun db => db.traffic.tables.domainPage query sort context now limit offset :=
  .bind .ofExcept fun _ => .bind .query fun _ => .bind .get fun _ => .bind .ofExcept fun _ =>
    .bind .query fun _ => .pure

theorem computes_exportProfiles {scan : List IpProfileDto → List IpProfileDto} :
    Computes (Db.exportProfiles query scan now) fun db => db.traffic.tables.profiles query scan now :=
  .bind .ofExcept fun _ => .query

theorem computes_exportBytes {flows : List FlowDto} {truncated : Bool} :
    Computes (Db.exportBytes request context clock flows truncated)
      fun db => db.traffic.tables.exportBytes request context clock flows truncated := by
  unfold Db.exportBytes Tables.exportBytes Tables.exportDocument
  cases request.format with
  | json =>
    refine Computes.congr (.bind computes_domainRows fun _ =>
      .bind computes_exportProfiles fun _ => .ofExcept) fun db => ?_
    simp only [LawfulMonad.bind_assoc, LawfulMonad.pure_bind]
  | csv => exact .pure

theorem computes_exportRow : Computes (Db.exportRow request context clock)
    fun db => db.rowOf request context clock :=
  .bind computes_flowsPage fun _ => .bind computes_exportBytes fun _ => .bind .get fun _ => .pure

end Queries

/-! ## What it is to hold -/

namespace Tables

variable (t : Tables) (query : FlowQuery) (now : SystemTime)

/-- The flows that match when they are read. -/
def matching : List IdRow :=
  match query.clauses now true with
  | .ok clauses => t.flowsWhere clauses
  | .error _ => []

/-- The domains that are associated with a flow that matches, under the filters on associations. -/
def matchingDomains : List String :=
  ((t.matching query now).flatMap fun r =>
    (r.2.domainsJson.filter query.joinClauses).map DomainRefDto.domain).dedup

end Tables

/-- The sections hold all that the query selects when each of them is read. -/
structure ExportDocument.Complete (document : ExportDocument) (t : Tables)
    (request : CreateExportRequest) (context : ExportContext) (clock : ExportClock) : Prop where
  flows : ∀ r ∈ t.matching request.query clock.flows, ∃ record,
    TrafficDb.recordOf t r.1 = some record ∧ record.toDto context.rates ∈ document.flows
  domains : ∀ r ∈ t.matching request.query clock.domains, ∀ d ∈ r.2.domainsJson,
    request.query.Fits d → ∃ summary ∈ document.domains, summary.domain = d.domain
  profiles : ∀ r ∈ t.matching request.query clock.created, exportProfile r ∈ document.profiles

/-- The sorts of flows that are none of domains. -/
def flowOnlySorts : List String := ["first_seen", "direction", "remote", "application"]

section Export

variable (db : Db) (query : FlowQuery) (sort : Option String) (context : ExportContext)
  (clock : ExportClock)

/-- What is created as JSON and not marked as truncated is the text of a complete document. -/
def WholeUnlessTruncated : Prop :=
  ∀ faults row c, Db.exportRow ⟨.json, query, sort⟩ context clock ⟨db, faults⟩ = (.ok row, c) →
    row.truncated = false → ∃ document,
      db.traffic.tables.documentOf ⟨.json, query, sort⟩ context clock = .ok document ∧
        context.serialize document = .ok row.content ∧ document.truncated = false ∧
          document.Complete db.traffic.tables ⟨.json, query, sort⟩ context clock

/-- What is accepted for a CSV export is accepted for a JSON export. -/
def AcceptedAsCsv : Prop :=
  (Db.exportRow ⟨.csv, query, sort⟩ context clock ⟨db, []⟩).1.isOk →
    (Db.exportRow ⟨.json, query, sort⟩ context clock ⟨db, []⟩).1.isOk

/-- The query is one that no export accepts, or the sort is one of domains too and either more flows
match than an export holds or no more domains and profiles than it holds. -/
def FewEnough (t : Tables) : Prop :=
  (query.clauses clock.flows true).isOk = false ∨ (flowOrder t sort).isOk = false ∨
    (splitSort sort "-last_seen").1 ∉ flowOnlySorts ∧
      (exportMaxRecords < (t.matching query clock.flows).length ∨
        (t.matchingDomains query clock.domains).length ≤ exportMaxRecords ∧
          (distinctProfiles (t.matching query clock.created)).length ≤ exportMaxRecords)

end Export

section Acceptance

variable {query : FlowQuery} {sort : Option String} {now now' : SystemTime} {t : Tables}
  {bare : List IdRow → Option IdRow}

/-- Whether a query is accepted does not depend on when, nor on which filters are applied. -/
theorem exists_clauses {associationFilters : Bool} {clauses : List FlowClause}
    (h : query.clauses now associationFilters = .ok clauses) (now' : SystemTime)
    (associationFilters' : Bool) : ∃ clauses', query.clauses now' associationFilters' = .ok clauses' := by
  unfold FlowQuery.clauses at h ⊢
  obtain ⟨window, hwindow, -⟩ := Except.bind_eq_ok.mp h
  have hwindow' : ∃ window', query.windowClauses now' = .ok window' := by
    unfold FlowQuery.windowClauses at hwindow ⊢
    split at hwindow
    · split_ifs at hwindow ⊢
      exact ⟨_, rfl⟩
    · exact ⟨_, rfl⟩
    · cases hwindow
  obtain ⟨window', hwindow'⟩ := hwindow'
  rw [hwindow']
  exact ⟨_, rfl⟩

theorem isOk_orderOf {α : Type} {default : String} {columns : String → Option (α → SqlValue)}
    {ties : α → List SqlValue} : (orderOf default columns ties sort).isOk = true ↔
      (columns (splitSort sort default).1).isSome = true := by
  unfold orderOf
  simp only
  split
  · next hnone => simp [hnone, Except.isOk, Except.toBool]
  · next column hcolumn => simp [hcolumn, Except.isOk, Except.toBool]

theorem isSome_domainColumn {field : String} (h : (flowColumn t field).isSome = true) :
    (domainColumn t bare field).isSome = true ↔ field ∉ flowOnlySorts := by
  unfold flowColumn at h
  split at h
  -- the channels of rates are sorts of both
  case h_9 =>
    rw [Option.isSome_map] at h
    unfold rateChannel at h
    split at h
    · exact iff_of_true rfl (by decide)
    · exact iff_of_true rfl (by decide)
    · exact iff_of_true rfl (by decide)
    · cases h
  case h_1 | h_3 | h_4 | h_8 => exact iff_of_true rfl (by decide)
  case h_2 | h_5 | h_6 | h_7 => exact iff_of_false Bool.false_ne_true (by decide)

/-- Of the sorts of flows, domains have all but those that are of flows only. -/
theorem isOk_domainOrder (h : (flowOrder t sort).isOk = true) :
    (domainOrder t bare sort).isOk = true ↔ (splitSort sort "-last_seen").1 ∉ flowOnlySorts := by
  unfold flowOrder at h
  unfold domainOrder
  rw [isOk_orderOf] at h ⊢
  cases sort with
  | none =>
    have hfields : splitSort none "-bytes" = ("bytes", true) ∧
        splitSort none "-last_seen" = ("last_seen", true) := by decide
    rw [hfields.1, hfields.2]
    exact iff_of_true rfl (by decide)
  | some raw => exact isSome_domainColumn h

end Acceptance

/-! ## The sections -/

section Sections

variable {t : Tables} {query : FlowQuery} {sort : Option String} {now : SystemTime}
  {clauses : List FlowClause} {context : ExportContext} {limit : ℕ}

theorem matching_eq (h : query.clauses now true = .ok clauses) :
    t.matching query now = t.flowsWhere clauses := by
  unfold Tables.matching
  rw [h]

theorem isSome_recordOf {r : IdRow} (h : r ∈ t.flows.rows) : ∃ record,
    TrafficDb.recordOf t r.1 = some record := by
  unfold TrafficDb.recordOf
  rw [Table.find_eq_some_iff.mpr h]
  exact ⟨_, rfl⟩

/-- The flows that a page has, and whether it leaves any out. -/
theorem flowsPage_holds {rates : Rates} {page : List FlowDto × ℕ}
    (h : t.flowsPage query sort rates now limit 0 = .ok page) :
    (page.1.length < page.2 ↔ limit < (t.matching query now).length) ∧
      ((t.matching query now).length ≤ limit → ∀ r ∈ t.matching query now, ∃ record,
        TrafficDb.recordOf t r.1 = some record ∧ record.toDto rates ∈ page.1) := by
  unfold Tables.flowsPage at h
  obtain ⟨clauses, hclauses, h⟩ := Except.bind_eq_ok.mp h
  obtain ⟨order, -, h⟩ := Except.bind_eq_ok.mp h
  obtain rfl := Except.ok.inj h
  rw [matching_eq hclauses, List.drop_zero]
  have hrows : ∀ r ∈ ((t.flowsWhere clauses).insertionSort order.le).take limit,
      ∃ record, TrafficDb.recordOf t r.1 = some record := by
    intro r hr
    have hmem := (List.mem_insertionSort order.le).mp (List.mem_of_mem_take hr)
    exact isSome_recordOf (List.mem_of_mem_filter hmem)
  constructor
  · have hlength := List.filterMap_length_eq_length.mpr fun r hr =>
      Option.isSome_iff_exists.mpr (hrows r hr)
    simp only [List.length_map, hlength, List.length_take, List.length_insertionSort]
    omega
  · intro hfew r hr
    rw [← List.length_insertionSort order.le] at hfew
    rw [List.take_of_length_le hfew] at hrows ⊢
    have hmem := (List.mem_insertionSort order.le).mpr hr
    obtain ⟨record, hrecord⟩ := hrows r hmem
    exact ⟨record, hrecord, List.mem_map_of_mem (List.mem_filterMap.mpr ⟨r, hmem, hrecord⟩)⟩

theorem mem_matchingDomains {name : String} : name ∈ t.matchingDomains query now ↔
    ∃ r ∈ t.matching query now, ∃ d ∈ r.2.domainsJson, query.Fits d ∧ d.domain = name := by
  unfold Tables.matchingDomains
  simp only [List.mem_dedup, List.mem_flatMap, List.mem_map, List.mem_filter, joinClauses_iff, and_assoc]

theorem mem_joined (hlisted : t.Listed) {pair : DomainPair} : pair ∈ t.joined query clauses ↔
    pair.1 ∈ t.flowsWhere clauses ∧ pair.2 ∈ pair.1.2.domainsJson ∧ query.Fits pair.2 := by
  unfold Tables.joined
  rw [List.mem_filter, mem_domainJoin hlisted, Bool.and_eq_true, joinClauses_iff, mem_flowsWhere]
  tauto

/-- A flow that passes the other filters matches, should a domain not be asked for and one of its
associations fit. -/
theorem mem_matching_of_fits (hfalse : query.clauses now false = .ok clauses)
    (hnone : query.domain = none) {r : IdRow} (hr : r ∈ t.flowsWhere clauses) {d : DomainRefDto}
    (hd : d ∈ r.2.domainsJson) (hfits : query.Fits d) : r ∈ t.matching query now := by
  obtain ⟨clauses', htrue, hall⟩ := clauses_true_of_false hfalse
  obtain ⟨hrow, hpass⟩ := mem_flowsWhere.mp hr
  rw [matching_eq htrue, mem_flowsWhere, hall, hpass, Bool.true_and, associationClauses_iff, hnone]
  refine ⟨hrow, nofun, ?_, ?_⟩
  · exact fun evidence hevidence => ⟨d, hd, hfits.evidence evidence hevidence⟩
  · exact fun confidence hconfidence => ⟨d, hd, hfits.confidence confidence hconfidence⟩

/-- The domains that are selected are those of flows that match, or the one that is asked for. -/
theorem length_groups_le (hlisted : t.Listed) (hfalse : query.clauses now false = .ok clauses)
    (hfew : (t.matchingDomains query now).length ≤ limit) (hlimit : 0 < limit) :
    (groupBy (fun pair => pair.2.domain) (t.joined query clauses)).length ≤ limit := by
  have hnodup : ((groupBy (fun pair : DomainPair => pair.2.domain)
      (t.joined query clauses)).map Prod.fst).Nodup := nodup_groupBy
  have hkeys : ∀ name ∈ (groupBy (fun pair : DomainPair => pair.2.domain)
      (t.joined query clauses)).map Prod.fst,
      ∃ pair ∈ t.joined query clauses, pair.2.domain = name := by
    intro name hname
    obtain ⟨group, hgroup, rfl⟩ := List.mem_map.mp hname
    exact (mem_groupBy.mp hgroup).1
  rw [← List.length_map Prod.fst]
  cases hdomain : query.domain with
  | none =>
    refine (List.subperm_of_subset hnodup fun name hname => ?_).length_le.trans hfew
    obtain ⟨pair, hpair, rfl⟩ := hkeys name hname
    obtain ⟨hrow, hd, hfits⟩ := (mem_joined hlisted).mp hpair
    exact mem_matchingDomains.mpr
      ⟨pair.1, mem_matching_of_fits hfalse hdomain hrow hd hfits, pair.2, hd, hfits, rfl⟩
  | some asked =>
    have hone : (groupBy (fun pair : DomainPair => pair.2.domain)
        (t.joined query clauses)).map Prod.fst ⊆ [normalizeDomain asked] := by
      intro name hname
      obtain ⟨pair, hpair, rfl⟩ := hkeys name hname
      rw [((mem_joined hlisted).mp hpair).2.2.domain asked hdomain]
      exact List.mem_singleton_self _
    exact (List.subperm_of_subset hnodup hone).length_le.trans hlimit

/-- The domains of a page are those of the flows that match if and only if they are few enough. -/
theorem domainPage_holds (hlisted : t.Listed) {page : List DomainSummaryDto × ℕ} (hlimit : 0 < limit)
    (h : t.domainPage query sort context now limit 0 = .ok page) :
    (∀ r ∈ t.matching query now, ∀ d ∈ r.2.domainsJson, query.Fits d →
        ∃ summary ∈ page.1, summary.domain = d.domain) ↔
      (t.matchingDomains query now).length ≤ limit := by
  unfold Tables.domainPage at h
  obtain ⟨clauses, hclauses, h⟩ := Except.bind_eq_ok.mp h
  obtain ⟨order, -, h⟩ := Except.bind_eq_ok.mp h
  obtain rfl := Except.ok.inj h
  rw [List.drop_zero]
  constructor
  · intro hheld
    have hsubset : t.matchingDomains query now ⊆
        ((((groupBy (fun pair => pair.2.domain) (t.joined query clauses)).insertionSort
          order.le).take limit).map (domainSummary context.rates)).map DomainSummaryDto.domain := by
      intro name hname
      obtain ⟨r, hr, d, hd, hfits, rfl⟩ := mem_matchingDomains.mp hname
      obtain ⟨summary, hsummary, heq⟩ := hheld r hr d hd hfits
      rw [← heq]
      exact List.mem_map_of_mem hsummary
    refine (List.subperm_of_subset (List.nodup_dedup _) hsubset).length_le.trans ?_
    rw [List.length_map, List.length_map]
    exact List.length_take_le limit _
  · intro hfew r hr d hd hfits
    have hgroups := length_groups_le hlisted hclauses hfew hlimit
    rw [← List.length_insertionSort order.le] at hgroups
    rw [List.take_of_length_le hgroups]
    obtain ⟨clauses', htrue, hall⟩ := clauses_true_of_false hclauses
    rw [matching_eq htrue, mem_flowsWhere, hall, Bool.and_eq_true] at hr
    have hpair : ((r, d) : DomainPair) ∈ t.joined query clauses :=
      (mem_joined hlisted).mpr ⟨mem_flowsWhere.mpr ⟨hr.1, hr.2.1⟩, hd, hfits⟩
    have hgroup : (d.domain, (t.joined query clauses).filter fun pair => pair.2.domain = d.domain) ∈
        groupBy (fun pair => pair.2.domain) (t.joined query clauses) :=
      mem_groupBy.mpr ⟨⟨(r, d), hpair, rfl⟩, rfl⟩
    exact ⟨_, List.mem_map_of_mem ((List.mem_insertionSort order.le).mpr hgroup), rfl⟩

theorem profiles_holds {scan : List IpProfileDto → List IpProfileDto} {profiles : List IpProfileDto}
    (hscan : ∀ profiles, (scan profiles).Perm profiles)
    (h : t.profiles query scan now = .ok profiles) :
    (∀ r ∈ t.matching query now, exportProfile r ∈ profiles) ↔
      (distinctProfiles (t.matching query now)).length ≤ exportMaxRecords := by
  unfold Tables.profiles at h
  obtain ⟨clauses, hclauses, h⟩ := Except.bind_eq_ok.mp h
  obtain rfl := Except.ok.inj h
  rw [matching_eq hclauses]
  constructor
  · intro hheld
    have hsubset : distinctProfiles (t.flowsWhere clauses) ⊆
        (scan (distinctProfiles (t.flowsWhere clauses))).take exportMaxRecords := by
      intro profile hprofile
      obtain ⟨r, hr, rfl⟩ := List.mem_map.mp (List.mem_dedup.mp hprofile)
      exact hheld r hr
    exact (List.subperm_of_subset (List.nodup_dedup _) hsubset).length_le.trans
      (List.length_take_le _ _)
  · intro hfew r hr
    rw [← (hscan _).length_eq] at hfew
    rw [List.take_of_length_le hfew]
    exact (hscan _).mem_iff.mpr (List.mem_dedup.mpr (List.mem_map_of_mem hr))

end Sections

/-! ## The export -/

section Whole

variable {db : Db} {query : FlowQuery} {sort : Option String} {context : ExportContext}
  {clock : ExportClock} {document : ExportDocument} {row : ExportRow} {t : Tables}

theorem documentOf_ok (h : t.documentOf ⟨.json, query, sort⟩ context clock = .ok document) :
    ∃ page domains, t.flowsPage query sort context.rates clock.flows exportMaxRecords 0 = .ok page ∧
      t.domainPage query sort context clock.domains exportMaxRecords 0 = .ok domains ∧
        t.profiles query context.scan clock.created = .ok document.profiles ∧
          document.flows = page.1 ∧ document.domains = domains.1 ∧
            document.truncated = decide (page.1.length < page.2) := by
  obtain ⟨page, hpage, h⟩ := Except.bind_eq_ok.mp h
  obtain ⟨domains, hdomains, h⟩ := Except.bind_eq_ok.mp h
  obtain ⟨profiles, hprofiles, h⟩ := Except.bind_eq_ok.mp h
  obtain rfl := Except.ok.inj h
  exact ⟨page, domains, hpage, hdomains, hprofiles, rfl, rfl, rfl⟩

theorem truncated_iff (h : t.documentOf ⟨.json, query, sort⟩ context clock = .ok document) :
    document.truncated = false ↔ (t.matching query clock.flows).length ≤ exportMaxRecords := by
  obtain ⟨page, domains, hpage, -, -, -, -, htruncated⟩ := documentOf_ok h
  rw [htruncated, decide_eq_false_iff_not, (flowsPage_holds hpage).1, not_lt]

/-- A document that is not marked as truncated is complete if and only if its domains and profiles
are few enough. -/
theorem complete_iff (hlisted : t.Listed) (hscan : ∀ profiles, (context.scan profiles).Perm profiles)
    (h : t.documentOf ⟨.json, query, sort⟩ context clock = .ok document)
    (hfew : (t.matching query clock.flows).length ≤ exportMaxRecords) :
    document.Complete t ⟨.json, query, sort⟩ context clock ↔
      (t.matchingDomains query clock.domains).length ≤ exportMaxRecords ∧
        (distinctProfiles (t.matching query clock.created)).length ≤ exportMaxRecords := by
  obtain ⟨page, domains, hpage, hdomains, hprofiles, hflows, hnames, -⟩ := documentOf_ok h
  rw [← domainPage_holds hlisted (by decide) hdomains, ← profiles_holds hscan hprofiles, ← hnames]
  constructor
  · exact fun hcomplete => ⟨hcomplete.domains, hcomplete.profiles⟩
  · rintro ⟨hdomains, hprofiles⟩
    refine ⟨?_, hdomains, hprofiles⟩
    rw [hflows]
    exact (flowsPage_holds hpage).2 hfew

/-- The row of a JSON export tells of its document. -/
theorem rowOf_json (h : db.rowOf ⟨.json, query, sort⟩ context clock = .ok row) : ∃ document,
    db.traffic.tables.documentOf ⟨.json, query, sort⟩ context clock = .ok document ∧
      context.serialize document = .ok row.content ∧ row.truncated = document.truncated := by
  obtain ⟨page, hpage, h⟩ := Except.bind_eq_ok.mp h
  obtain ⟨content, hcontent, h⟩ := Except.bind_eq_ok.mp h
  obtain rfl := Except.ok.inj h
  obtain ⟨document, hdocument, hcontent⟩ := Except.bind_eq_ok.mp hcontent
  refine ⟨document, Except.bind_eq_ok.mpr ⟨page, hpage, hdocument⟩, ?_, ?_⟩
  · cases hserialized : context.serialize document with
    | error error =>
      rw [hserialized] at hcontent
      cases hcontent
    | ok text =>
      rw [hserialized] at hcontent
      obtain rfl := Except.ok.inj hcontent
      rfl
  · obtain ⟨domains, -, h⟩ := Except.bind_eq_ok.mp hdocument
    obtain ⟨profiles, -, h⟩ := Except.bind_eq_ok.mp h
    obtain rfl := Except.ok.inj h
    rfl

theorem flowsPage_isOk (rates : Rates) (now : SystemTime) (limit offset : ℕ) :
    (t.flowsPage query sort rates now limit offset).isOk = true ↔
      (query.clauses now true).isOk = true ∧ (flowOrder t sort).isOk = true := Except.isOk_bind_bind

theorem domainPage_isOk (limit offset : ℕ) :
    (t.domainPage query sort context now limit offset).isOk = true ↔
      (query.clauses now false).isOk = true ∧ (domainOrder t context.bare sort).isOk = true :=
  Except.isOk_bind_bind

/-- A CSV export is accepted for the queries and the sorts of flows. -/
theorem rowOf_csv_isOk : (db.rowOf ⟨.csv, query, sort⟩ context clock).isOk = true ↔
    (query.clauses clock.flows true).isOk = true ∧ (flowOrder db.traffic.tables sort).isOk = true := by
  rw [← flowsPage_isOk context.rates clock.flows exportMaxRecords 0, Except.isOk_iff_exists,
    Except.isOk_iff_exists]
  constructor
  · rintro ⟨row, h⟩
    obtain ⟨page, hpage, -⟩ := Except.bind_eq_ok.mp h
    exact ⟨page, hpage⟩
  · rintro ⟨page, hpage⟩
    exact ⟨_, Except.bind_eq_ok.mpr ⟨page, hpage, rfl⟩⟩

/-- A JSON export is accepted for those that are sorts of domains, too. -/
theorem rowOf_json_isOk (hserialize : ∀ document, ∃ content, context.serialize document = .ok content) :
    (db.rowOf ⟨.json, query, sort⟩ context clock).isOk = true ↔
      ((query.clauses clock.flows true).isOk = true ∧
        (flowOrder db.traffic.tables sort).isOk = true) ∧
      (domainOrder db.traffic.tables context.bare sort).isOk = true := by
  rw [← flowsPage_isOk context.rates clock.flows exportMaxRecords 0]
  constructor
  · intro h
    obtain ⟨row, h⟩ := Except.isOk_iff_exists.mp h
    obtain ⟨document, hdocument, -⟩ := rowOf_json h
    obtain ⟨page, domains, hpage, hdomains, -⟩ := documentOf_ok hdocument
    exact ⟨Except.isOk_iff_exists.mpr ⟨page, hpage⟩,
      ((domainPage_isOk _ _).mp (Except.isOk_iff_exists.mpr ⟨domains, hdomains⟩)).2⟩
  · rintro ⟨hflows, hdomain⟩
    obtain ⟨page, hpage⟩ := Except.isOk_iff_exists.mp hflows
    obtain ⟨clauses, hclauses, -⟩ := Except.bind_eq_ok.mp hpage
    obtain ⟨domains, hdomains⟩ := Except.isOk_iff_exists.mp ((domainPage_isOk exportMaxRecords 0).mpr
      ⟨Except.isOk_iff_exists.mpr (exists_clauses hclauses clock.domains false), hdomain⟩)
    obtain ⟨profiles, hprofiles⟩ : ∃ profiles,
        db.traffic.tables.profiles query context.scan clock.created = .ok profiles := by
      obtain ⟨clauses', hclauses'⟩ := exists_clauses hclauses clock.created true
      exact ⟨_, Except.bind_eq_ok.mpr ⟨clauses', hclauses', rfl⟩⟩
    obtain ⟨document, hdocument⟩ : ∃ document, db.traffic.tables.exportDocument ⟨.json, query, sort⟩
        context clock page.1 (page.1.length < page.2) = .ok document :=
      ⟨_, Except.bind_eq_ok.mpr ⟨domains, hdomains, Except.bind_eq_ok.mpr ⟨profiles, hprofiles, rfl⟩⟩⟩
    obtain ⟨content, hcontent⟩ := hserialize document
    have hbytes : db.traffic.tables.exportBytes ⟨.json, query, sort⟩ context clock page.1
        (page.1.length < page.2) = .ok content := by
      refine Except.bind_eq_ok.mpr ⟨document, hdocument, ?_⟩
      rw [hcontent]
      rfl
    exact Except.isOk_iff_exists.mpr
      ⟨_, Except.bind_eq_ok.mpr ⟨page, hpage, Except.bind_eq_ok.mpr ⟨content, hbytes, rfl⟩⟩⟩

end Whole

/-- A daemon on a new file. -/
def newDb : Db := Db.restart {} ∅ 65536 (fromSecs 86400)

/-- The text of a document without records, by a collector that has not polled. -/
def emptyText (document : ExportDocument) : String :=
  "\x7b\n  \"generated_at\": " ++ s!"{document.generatedAt}" ++ ",\n  \"range\": null,\n" ++
    "  \"truncated\": false,\n  \"flows\": [],\n  \"domains\": [],\n  \"profiles\": [],\n" ++
    "  \"health\": null\n\x7d"

def emptyContext : ExportContext := ⟨∅, none, List.head?, id, fun document => .ok (emptyText document)⟩

end ZimaScope
