import ZimaScope.Api.Overview
import ZimaScope.Lib.Delimited

/-! # Overview pages

A page is a function of its parameters, of the time it is generated at, and of the
flows, associations and buckets; and the key that it is kept under tells the
parameters apart as far as that function does.
-/

namespace ZimaScope

open TrafficDb Storage

/-- The parameters of a page. -/
structure OverviewQuery where
  range : TimeRange
  excludeScope : List AddressScope := []
  interface : Option String := none

namespace OverviewQuery

variable (q : OverviewQuery) (now : SystemTime)

def key : String := overviewPageKey q.range q.excludeScope q.interface

def flowQuery : FlowQuery :=
  { range := some q.range, interface := q.interface, excludeScope := q.excludeScope }

/-- A page that is computed. -/
def compute : Action OverviewDto := computeOverview q.range q.excludeScope q.interface now

/-- What a page says of the tables. -/
def page (t : Tables) : Except ApiError OverviewDto := do
  let clauses ← q.flowQuery.clauses now true
  let rows := (t.flowsWhere clauses).map Prod.snd
  let totals ← overviewTotals rows
  let proxied ← proxiedTraffic rows
  let timeline ← bucketsTimeline t q.range now none q.interface
  pure {
    range := q.range.asStr
    now
    totals
    timeline
    activeFlows := rows.countP fun row => row.state = .active
    flowsWithDomain := rows.countP fun row => row.domainsJson ≠ []
    flowsTotal := rows.length
    proxied }

end OverviewQuery

/-- Flows with their associations, and buckets. -/
def Tables.shown (t : Tables) := (t.flows, t.flowDomains, t.trafficBuckets, t.entityBuckets)

section Computed

variable {q q' : OverviewQuery} {now : SystemTime} {t t' : Tables} {o : OverviewDto}

theorem computes_selectSums {α : Type} {f : Tables → Except ApiError α} :
    Computes (selectSums f) fun db => f db.tables :=
  (Computes.query.bind fun _ => .ofExcept).congr fun _ => rfl

theorem computes_readAside {count : ℕ} : Computes (readAside count) fun _ => .ok () := by
  unfold readAside
  induction count with
  | zero => exact .pure
  | succ count ih => exact (Computes.query.bind fun _ => ih).congr fun _ => rfl

theorem computes_overview : Computes (q.compute now) fun db => q.page now db.tables := by
  refine Computes.congr (.bind .ofExcept fun clauses => .bind computes_selectSums fun totals =>
    .bind .query fun counts => .bind computes_readAside fun _ =>
      .bind computes_selectSums fun proxied => .bind computes_selectSums fun timeline =>
        .bind computes_readAside fun _ => .pure) fun db => ?_
  rfl

theorem shown_eq_iff : t'.shown = t.shown ↔ t'.flows = t.flows ∧ t'.flowDomains = t.flowDomains ∧
    t'.trafficBuckets = t.trafficBuckets ∧ t'.entityBuckets = t.entityBuckets := by
  simp only [Tables.shown, Prod.mk.injEq]

theorem page_congr (h : t'.shown = t.shown) : q.page now t' = q.page now t := by
  obtain ⟨hflows, -, hbuckets, -⟩ := shown_eq_iff.mp h
  unfold OverviewQuery.page Tables.flowsWhere bucketsTimeline Tables.bucketRows
  rw [hflows, hbuckets]

/-- A page that is computed is what a computation on tables that show the same comes to. -/
theorem compute_of_page {db : TrafficDb} (h : q.page now t = .ok o)
    (ht : db.tables.shown = t.shown) :
    (q.compute now ⟨db, []⟩).1 = .ok o := by
  rw [computes_overview.runs]
  exact (page_congr ht).trans h

theorem now_of_page (h : q.page now t = .ok o) : o.now = now := by
  unfold OverviewQuery.page at h
  simp only [Except.bind_eq_ok] at h
  obtain ⟨_, -, _, -, _, -, _, -, h⟩ := h
  obtain rfl := Except.ok.inj h
  rfl

end Computed

/-! ## Keys -/

section Keys

variable {q q' : OverviewQuery} {now : SystemTime} {t : Tables}

theorem AddressScope.value_injective : Function.Injective AddressScope.value := by
  intro a b h
  cases a <;> cases b <;> first | rfl | exact absurd h (by decide)

/-- The scopes in a key, in order. -/
def scopeTexts (scopes : List AddressScope) : List String :=
  (scopes.map AddressScope.value).insertionSort (· ≤ ·)

theorem mem_scopeTexts {scopes : List AddressScope} {scope : AddressScope} :
    scope.value ∈ scopeTexts scopes ↔ scope ∈ scopes := by
  unfold scopeTexts
  rw [List.mem_insertionSort, List.mem_map_of_injective AddressScope.value_injective]

theorem scopeTexts_plain {scopes : List AddressScope} :
    ∀ part ∈ (scopeTexts scopes).map String.toList, ',' ∉ part ∧ part ≠ [] ∧ '|' ∉ part := by
  intro part hpart
  obtain ⟨text, htext, rfl⟩ := List.mem_map.mp hpart
  unfold scopeTexts at htext
  rw [List.mem_insertionSort] at htext
  obtain ⟨scope, -, rfl⟩ := List.mem_map.mp htext
  cases scope <;> decide

/-- What two pages with one key have in common. -/
theorem OverviewQuery.key_inj (h : q.key = q'.key) : q.range = q'.range ∧
    scopeTexts q.excludeScope = scopeTexts q'.excludeScope ∧
      q.interface.getD "" = q'.interface.getD "" := by
  have htext : ∀ q : OverviewQuery, q.key.toList = q.range.asStr.toList ++
      '|' :: ((",".intercalate (scopeTexts q.excludeScope)).toList ++
        '|' :: (q.interface.getD "").toList) := by
    intro q
    unfold key overviewPageKey scopeTexts
    simp
  have hrange : ∀ range : TimeRange, '|' ∉ range.asStr.toList := by
    intro range
    cases range <;> decide
  have hscopes : ∀ scopes, '|' ∉ (",".intercalate (scopeTexts scopes)).toList := by
    intro scopes hmem
    rw [String.toList_intercalate] at hmem
    rcases List.mem_intercalate hmem with hcomma | ⟨part, hpart, hbar⟩
    · exact absurd hcomma (by decide)
    · exact (scopeTexts_plain part hpart).2.2 hbar
  have hkeys := congrArg String.toList h
  rw [htext, htext, List.append_cons_inj_of_notMem_before (hrange _) (hrange _),
    List.append_cons_inj_of_notMem_before (hscopes _) (hscopes _)] at hkeys
  obtain ⟨hranges, htexts, hinterfaces⟩ := hkeys
  refine ⟨?_, ?_, String.toList_inj.mp hinterfaces⟩
  · revert hranges
    cases q.range <;> cases q'.range <;> decide
  · rw [String.toList_intercalate, String.toList_intercalate] at htexts
    have hparts := List.intercalate_inj (fun part hpart => ⟨(scopeTexts_plain part hpart).1,
      (scopeTexts_plain part hpart).2.1⟩) (fun part hpart => ⟨(scopeTexts_plain part hpart).1,
        (scopeTexts_plain part hpart).2.1⟩) htexts
    exact List.map_injective_iff.mpr (fun _ _ => String.toList_inj.mp) hparts

theorem trimmedText_getD (text : Option String) :
    trimmedText (some (text.getD "")) = trimmedText text := by
  cases text with
  | none => decide
  | some text => rfl

/-- Pages with one key are the same. -/
theorem page_congr_key (h : q.key = q'.key) : q.page now t = q'.page now t := by
  obtain ⟨hrange, hscopes, hinterface⟩ := q.key_inj h
  have htrimmed : trimmedText q.interface = trimmedText q'.interface := by
    rw [← trimmedText_getD q.interface, hinterface, trimmedText_getD]
  have hmem : ∀ scope, q.excludeScope.contains scope = q'.excludeScope.contains scope := by
    intro scope
    rw [Bool.eq_iff_iff, List.contains_iff_mem, List.contains_iff_mem, ← mem_scopeTexts, hscopes,
      mem_scopeTexts]
  have hnil : q.excludeScope = [] ↔ q'.excludeScope = [] := by
    simp only [List.eq_nil_iff_forall_not_mem, ← mem_scopeTexts, hscopes]
  have hexclude : (if q.excludeScope = [] then []
        else [fun _ row => !q.excludeScope.contains row.profile.scope] : List FlowClause) =
      if q'.excludeScope = [] then []
        else [fun _ row => !q'.excludeScope.contains row.profile.scope] := by
    simp only [hmem]
    by_cases hempty : q'.excludeScope = []
    · rw [if_pos hempty, if_pos (hnil.mpr hempty)]
    · rw [if_neg hempty, if_neg (mt hnil.mp hempty)]
  have hclauses : q.flowQuery.clauses now true = q'.flowQuery.clauses now true := by
    unfold OverviewQuery.flowQuery FlowQuery.clauses FlowQuery.windowClauses
    rw [hrange, htrimmed, hexclude]
    rfl
  unfold OverviewQuery.page bucketsTimeline
  rw [hclauses, hrange, htrimmed]

end Keys

end ZimaScope
