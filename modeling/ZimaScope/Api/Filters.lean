import ZimaScope.Api.Lists
import ZimaScope.Api.Mentions
import ZimaScope.Db.Histories

/-! # Filters

One filter on four lists. Flows and endpoints search the text of the associations for the domain,
the evidence and the confidence, domains compare them on the mirror, and applications leave all
three out. The lists agree where that makes no difference.
-/

namespace ZimaScope

namespace FlowQuery

variable (query : FlowQuery)

/-- The association is one that is asked for. -/
structure Fits (d : DomainRefDto) : Prop where
  domain : ∀ name ∈ query.domain, d.domain = normalizeDomain name
  evidence : ∀ evidence ∈ query.evidence, d.evidence = evidence
  confidence : ∀ confidence ∈ query.confidence, d.confidence = confidence

/-- An association is asked for. -/
def OnAssociations : Prop := query.domain ≠ none ∨ query.evidence ≠ none ∨ query.confidence ≠ none

/-- A flow has an association that is asked for. -/
def Associated (domains : List DomainRefDto) : Prop :=
  query.OnAssociations → ∃ d ∈ domains, query.Fits d

end FlowQuery

/-- The lists for one query, beside the flows that pass the filters that are not about
associations and those that `/v1/flows` lists. -/
structure FiltersAgree (t : Tables) (query : FlowQuery) (now : SystemTime)
    (passing listed : List IdRow) : Prop where
  flows : ∀ r, r ∈ listed ↔ r ∈ passing ∧ query.Associated r.2.domainsJson
  endpoints : ∀ rates, ∃ rows, t.endpointRows query now = .ok rows ∧
    (rows.map (endpointSummary rates)).Perm
      ((groupBy (fun r => r.2.remote.address) listed).map (endpointSummary rates))
  applications : ∀ rates, ∃ rows, t.applicationRows query now = .ok rows ∧
    (rows.map (applicationSummary t.applications rates)).Perm
      ((groupBy Prod.fst (withApplication listed)).map fun group =>
        applicationSummary t.applications rates (group.1, group.2.map Prod.snd))
  domains : ∃ pairs : List DomainPair, pairs.Nodup ∧
    (∀ pair, pair ∈ pairs ↔
      pair.1 ∈ passing ∧ pair.2 ∈ pair.1.2.domainsJson ∧ query.Fits pair.2) ∧
    t.domainRows query now = .ok (groupBy (fun pair => pair.2.domain) pairs)

/-- Of the flows that pass the other filters, the text of the associations tells those that have
an association that is asked for, and so do the applications. -/
structure FiltersClear (query : FlowQuery) (passing : List IdRow) : Prop where
  /-- JSON does not change the domain that is asked for, or not so that it is missed. -/
  told : ∀ r ∈ passing, ∀ name ∈ query.domain, (∃ d ∈ r.2.domainsJson, query.Fits d) →
    Mentions r.2.domainsJson (normalizeDomain name)
  /-- What is found is not told of different associations, nor a word of the format. -/
  apart : ∀ r ∈ passing, (∀ name ∈ query.domain, Mentions r.2.domainsJson (normalizeDomain name)) →
    (∀ evidence ∈ query.evidence, ∃ d ∈ r.2.domainsJson, d.evidence = evidence) →
    (∀ confidence ∈ query.confidence, ∃ d ∈ r.2.domainsJson, d.confidence = confidence) →
    query.Associated r.2.domainsJson
  /-- No application has traffic that the filters on associations would leave out. -/
  applications : ∀ r ∈ passing, r.2.appId ≠ none → query.Associated r.2.domainsJson

section Clauses

variable {query : FlowQuery} {now : SystemTime} {clauses : List FlowClause} {r : IdRow}
  {t : Tables}

theorem joinClauses_iff {d : DomainRefDto} : query.joinClauses d = true ↔ query.Fits d := by
  unfold FlowQuery.joinClauses
  simp only [Bool.and_eq_true, Option.all_eq_true, decide_eq_true_eq,
    Option.map_eq_some_iff, forall_exists_index, and_imp, forall_apply_eq_imp_iff₂]
  constructor
  · rintro ⟨⟨hdomain, hevidence⟩, hconfidence⟩
    exact ⟨hdomain, hevidence, hconfidence⟩
  · rintro ⟨hdomain, hevidence, hconfidence⟩
    exact ⟨⟨hdomain, hevidence⟩, hconfidence⟩

theorem associationClauses_iff {id : UInt64} {row : FlowRow} :
    (query.associationClauses.all fun clause => clause id row) = true ↔
      (∀ name ∈ query.domain, Mentions row.domainsJson (normalizeDomain name)) ∧
      (∀ evidence ∈ query.evidence, ∃ d ∈ row.domainsJson, d.evidence = evidence) ∧
      ∀ confidence ∈ query.confidence, ∃ d ∈ row.domainsJson, d.confidence = confidence := by
  have hgiven : ∀ {α : Type} {value : Option α} {clause : α → FlowClause},
      ((given value clause).all fun clause => clause id row) = true ↔
        ∀ a ∈ value, clause a id row = true := by
    intro α value clause
    cases value <;> simp [given]
  unfold FlowQuery.associationClauses
  simp only [List.all_append, Bool.and_eq_true, hgiven, domainsContain_iff,
    domainsContain_evidence_iff, domainsContain_confidence_iff, and_assoc]

/-- The filters on associations are beside the others. -/
theorem clauses_true_of_false (h : query.clauses now false = .ok clauses) :
    ∃ clauses', query.clauses now true = .ok clauses' ∧ ∀ id row,
      (clauses'.all fun clause => clause id row) =
        ((clauses.all fun clause => clause id row) &&
          query.associationClauses.all fun clause => clause id row) := by
  unfold FlowQuery.clauses at h ⊢
  obtain ⟨window, hwindow, h⟩ := Except.bind_eq_ok.mp h
  obtain rfl := Except.ok.inj h
  refine ⟨_, by rw [hwindow]; rfl, fun id row => ?_⟩
  simp only [List.flatten_cons, List.flatten_nil, List.all_append, if_true, Bool.false_eq_true,
    if_false, List.all_nil, Bool.true_and]
  ac_rfl

theorem mem_flowsWhere : r ∈ t.flowsWhere clauses ↔
    r ∈ t.flows.rows ∧ (clauses.all fun clause => clause r.1 r.2) = true := List.mem_filter

end Clauses

section Join

variable {t : Tables} {pair : DomainPair}

/-- The joined associations are those of the flows. -/
theorem mem_domainJoin (h : t.Listed) :
    pair ∈ t.domainJoin ↔ pair.1 ∈ t.flows.rows ∧ pair.2 ∈ pair.1.2.domainsJson := by
  obtain ⟨⟨id, row⟩, domain, evidence, confidence⟩ := pair
  have hfind : t.flows.find id = some row →
      (t.flowDomains.find (id, domain) = some (evidence, confidence) ↔
        ⟨domain, evidence, confidence⟩ ∈ row.domainsJson) := by
    intro hrow
    rw [h.domains id domain, hrow]
    exact association_eq_some_iff (h.unique id row hrow)
  unfold Tables.domainJoin
  rw [List.mem_filterMap]
  constructor
  · rintro ⟨⟨⟨id', domain'⟩, evidence', confidence'⟩, hmem, hpair⟩
    obtain ⟨row', hrow, hpair⟩ := Option.map_eq_some_iff.mp hpair
    obtain ⟨⟨rfl, rfl⟩, rfl, rfl, rfl⟩ : (id' = id ∧ row' = row) ∧ domain' = domain ∧
        evidence' = evidence ∧ confidence' = confidence := by
      simpa using hpair
    exact ⟨Table.find_eq_some_iff.mp hrow, (hfind hrow).mp (Table.find_eq_some_iff.mpr hmem)⟩
  · rintro ⟨hrow, hd⟩
    have hfound := Table.find_eq_some_iff.mpr hrow
    refine ⟨((id, domain), evidence, confidence), ?_, Option.map_eq_some_iff.mpr ⟨row, hfound, rfl⟩⟩
    exact Table.find_eq_some_iff.mp ((hfind hfound).mpr hd)

theorem nodup_domainJoin : t.domainJoin.Nodup := by
  apply t.flowDomains.nodup.of_map.filterMap
  rintro ⟨⟨id, domain⟩, evidence, confidence⟩ ⟨⟨id', domain'⟩, evidence', confidence'⟩ pair hfirst
    hsecond
  obtain ⟨row, -, rfl⟩ := Option.map_eq_some_iff.mp hfirst
  obtain ⟨row', -, hpair⟩ := Option.map_eq_some_iff.mp hsecond
  simp_all

end Join

section Agreement

variable {t : Tables} {query : FlowQuery} {now : SystemTime} {clauses : List FlowClause}
  {passing listed : List IdRow}

theorem applicationRows_of_clauses (hq : query.q = none)
    (h : query.clauses now false = .ok clauses) :
    t.applicationRows query now =
      .ok ((groupBy Prod.fst (withApplication (t.flowsWhere clauses))).map fun group =>
        (group.1, group.2.map Prod.snd)) := by
  have hquery : { query with q := none } = query := by rw [← hq]
  unfold Tables.applicationRows
  simp only [hquery, h, hq]
  have hall : (withApplication (t.flowsWhere clauses)).filter (fun r =>
      (searchWord none).all fun word => containsText (applicationText t.applications r.1) word) =
        withApplication (t.flowsWhere clauses) := List.filter_true _
  change Except.ok _ = _
  rw [hall]

theorem mem_withApplication {rows : List IdRow} {r : IdRow} {id : String} :
    (id, r) ∈ withApplication rows ↔ r ∈ rows ∧ r.2.appId = some id := by
  unfold withApplication
  simp only [List.mem_filterMap, Option.map_eq_some_iff, Prod.mk.injEq]
  constructor
  · rintro ⟨r', hr', id', hid, rfl, rfl⟩
    exact ⟨hr', hid⟩
  · rintro ⟨hr, hid⟩
    exact ⟨r, hr, id, hid, rfl, rfl⟩

/-- The flows with an application are counted in the summaries. -/
theorem sum_flowCount_applications {applications : Table String ApplicationRow} {rates : Rates}
    {rows : List IdRow} :
    (((groupBy Prod.fst (withApplication rows)).map fun group =>
      applicationSummary applications rates (group.1, group.2.map Prod.snd)).map
        fun summary => summary.flowCount).sum = (withApplication rows).length := by
  have hsum : ((groupBy Prod.fst (withApplication rows)).map fun group => group.2.length).sum =
      (withApplication rows).length := sum_length_groupBy
  rw [List.map_map, ← hsum]
  congr 1
  apply List.map_congr_left
  rintro group -
  change ((group.2.map Prod.snd).map Prod.snd).length = group.2.length
  rw [List.length_map, List.length_map]

/-- Applications whose summaries are those of the listed flows have no other flows. -/
theorem mem_listed_of_agree (hq : query.q = none) (h : query.clauses now false = .ok clauses)
    (hsub : listed.Sublist (t.flowsWhere clauses))
    (hagree : FiltersAgree t query now (t.flowsWhere clauses) listed) {r : IdRow}
    (hr : r ∈ t.flowsWhere clauses) (happ : r.2.appId ≠ none) : r ∈ listed := by
  obtain ⟨rows, hrows, hperm⟩ := hagree.applications ∅
  rw [applicationRows_of_clauses hq h] at hrows
  obtain rfl := Except.ok.inj hrows
  rw [List.map_map] at hperm
  have hcount := (hperm.map fun summary => summary.flowCount).sum_eq
  have hlength : (withApplication (t.flowsWhere clauses)).length = (withApplication listed).length := by
    rw [← sum_flowCount_applications, ← sum_flowCount_applications]
    exact hcount
  have heq : withApplication listed = withApplication (t.flowsWhere clauses) :=
    (hsub.filterMap _).eq_of_length hlength.symm
  obtain ⟨id, hid⟩ := Option.ne_none_iff_exists'.mp happ
  have hmem : (id, r) ∈ withApplication (t.flowsWhere clauses) := mem_withApplication.mpr ⟨hr, hid⟩
  rw [← heq] at hmem
  exact (mem_withApplication.mp hmem).1

/-- What a list of flows with every filter leaves of those that pass the others. -/
theorem listedFlows_of_clauses (h : query.clauses now false = .ok clauses) :
    t.listedFlows query now = .ok ((t.flowsWhere clauses).filter fun r =>
      query.associationClauses.all fun clause => clause r.1 r.2) := by
  obtain ⟨clauses', hclauses, hall⟩ := clauses_true_of_false h
  have hrows : t.flowsWhere clauses' = (t.flowsWhere clauses).filter fun r =>
      query.associationClauses.all fun clause => clause r.1 r.2 := by
    unfold Tables.flowsWhere
    rw [List.filter_filter]
    apply List.filter_congr
    intro r _
    rw [hall, Bool.and_comm]
  unfold Tables.listedFlows
  rw [hclauses, ← hrows]
  rfl

/-- An association that is asked for has the evidence and the confidence that are. -/
theorem parts_of_associated {domains : List DomainRefDto} (h : query.Associated domains) :
    (∀ evidence ∈ query.evidence, ∃ d ∈ domains, d.evidence = evidence) ∧
      ∀ confidence ∈ query.confidence, ∃ d ∈ domains, d.confidence = confidence := by
  constructor
  · intro evidence hevidence
    obtain ⟨d, hd, hfits⟩ := h (.inr (.inl (Option.ne_none_iff_exists'.mpr ⟨_, hevidence⟩)))
    exact ⟨d, hd, hfits.evidence evidence hevidence⟩
  · intro confidence hconfidence
    obtain ⟨d, hd, hfits⟩ := h (.inr (.inr (Option.ne_none_iff_exists'.mpr ⟨_, hconfidence⟩)))
    exact ⟨d, hd, hfits.confidence confidence hconfidence⟩

/-- What is found in the text of the associations is what is asked for. -/
theorem associationClauses_iff_associated (hclear : FiltersClear query passing) {r : IdRow}
    (hr : r ∈ passing) :
    (query.associationClauses.all fun clause => clause r.1 r.2) = true ↔
      query.Associated r.2.domainsJson := by
  rw [associationClauses_iff]
  constructor
  · rintro ⟨hdomain, hevidence, hconfidence⟩
    exact hclear.apart r hr hdomain hevidence hconfidence
  · intro hassociated
    constructor
    · intro name hname
      have hon : query.OnAssociations := .inl (Option.ne_none_iff_exists'.mpr ⟨name, hname⟩)
      exact hclear.told r hr name hname (hassociated hon)
    · exact parts_of_associated hassociated

theorem filters_agree_of_clear (hlisted : t.Listed) (hq : query.q = none)
    (h : query.clauses now false = .ok clauses) (hclear : FiltersClear query (t.flowsWhere clauses)) :
    ∃ listed, t.listedFlows query now = .ok listed ∧
      FiltersAgree t query now (t.flowsWhere clauses) listed := by
  refine ⟨_, listedFlows_of_clauses h, ?_, ?_, ?_, ?_⟩
  · intro r
    rw [List.mem_filter]
    exact and_congr_right fun hr => associationClauses_iff_associated hclear hr
  · intro rates
    have hrows : t.endpointRows query now =
        (t.listedFlows query now).map (groupBy fun r => r.2.remote.address) := by
      unfold Tables.endpointRows Tables.listedFlows
      cases query.clauses now true <;> rfl
    rw [hrows, listedFlows_of_clauses h]
    exact ⟨_, rfl, .refl _⟩
  · intro rates
    refine ⟨_, applicationRows_of_clauses hq h, ?_⟩
    have hsame : withApplication ((t.flowsWhere clauses).filter fun r =>
        query.associationClauses.all fun clause => clause r.1 r.2) =
          withApplication (t.flowsWhere clauses) := by
      unfold withApplication
      rw [List.filterMap_filter]
      apply List.filterMap_congr
      intro r hr
      split_ifs with hpass
      · rfl
      · rw [associationClauses_iff_associated hclear hr] at hpass
        have hnone : r.2.appId = none := by
          by_contra happ
          exact hpass (hclear.applications r hr happ)
        rw [hnone]
        rfl
    rw [hsame, List.map_map]
    rfl
  · refine ⟨t.domainJoin.filter fun pair =>
      (clauses.all fun clause => clause pair.1.1 pair.1.2) && query.joinClauses pair.2,
      nodup_domainJoin.filter _, ?_, ?_⟩
    · intro pair
      rw [List.mem_filter, mem_domainJoin hlisted, Bool.and_eq_true, joinClauses_iff, mem_flowsWhere]
      tauto
    · unfold Tables.domainRows
      rw [h]
      rfl

theorem clear_of_filters_agree (hq : query.q = none) (h : query.clauses now false = .ok clauses)
    (hlist : t.listedFlows query now = .ok listed)
    (hagree : FiltersAgree t query now (t.flowsWhere clauses) listed) :
    FiltersClear query (t.flowsWhere clauses) := by
  rw [listedFlows_of_clauses h] at hlist
  obtain rfl := Except.ok.inj hlist
  constructor
  · intro r hr name hname hassociated
    have hmem := (hagree.flows r).mpr ⟨hr, fun _ => hassociated⟩
    exact (associationClauses_iff.mp (List.mem_filter.mp hmem).2).1 name hname
  · intro r hr hdomain hevidence hconfidence
    refine ((hagree.flows r).mp (List.mem_filter.mpr ⟨hr, ?_⟩)).2
    exact associationClauses_iff.mpr ⟨hdomain, hevidence, hconfidence⟩
  · intro r hr happ
    have hmem := mem_listed_of_agree hq h List.filter_sublist hagree hr happ
    exact ((hagree.flows r).mp hmem).2

end Agreement

/-- The flow and its lookup, in an empty file. -/
def lookedUpDb : TrafficDb := (TrafficDb.restart {} 65536).next (fun _ => 7) (.ingest lookedUp [])

def exampleQuery : FlowQuery := { domain := some "Example.com." }

/-- A flow of a process, never looked up. -/
def ownedInterval : IngestInput :=
  lanInterval {} [{ lanUpdate ⟨3, 300⟩ ⟨3, 300⟩ .active with
    resolved := some ⟨"exe:/usr/bin/curl", "process", "curl", some "/usr/bin/curl", "curl", 1000, none⟩ }]

def ownedDb : TrafficDb := (TrafficDb.restart {} 65536).next (fun _ => 7) (.ingest ownedInterval [])

end ZimaScope
