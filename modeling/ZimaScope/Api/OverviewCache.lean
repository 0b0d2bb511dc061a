import ZimaScope.Api.Clears
import ZimaScope.Api.OverviewPages
import ZimaScope.Api.RangeTotals
import ZimaScope.Db.Atomicity
import ZimaScope.Db.Switches

/-! # The page cache

A page is kept for two seconds. An ingest that brings flows or observations, a
settings save and a history clear drop every page; an empty ingest drops none,
though a retention policy that is due runs in it all the same. Pages say what the
tables hold as long as such a policy has nothing to delete while there is a page
to serve.
-/

namespace ZimaScope

open TrafficDb Storage

/-! ## A policy that deletes nothing of what pages show -/

/-- The retention policy keeps every flow and every bucket. -/
structure Tables.Still (t : Tables) (settings : Settings) (now : SystemTime) : Prop where
  flows : ∀ id row, t.flows.find id = some row → t.keptFlow settings now id row = true
  traffic : ∀ key row, t.trafficBuckets.find key = some row → keptBuckets now key = true
  entities : ∀ key row, t.entityBuckets.find key = some row → keptBuckets now key.bucket = true

section Still

variable {t t' : Tables} {settings : Settings} {now : SystemTime}

/-- What there is nothing of stays so. -/
theorem Tables.Still.shown_delete (h : t.Still settings now) {f : Tables → Tables}
    (hf : f ∈ policyStatements settings now t) (ht : t'.shown = t.shown) :
    (f t').shown = t.shown := by
  obtain ⟨hflows, -, htraffic, hentities⟩ := shown_eq_iff.mp ht
  have hkept : ∀ id row, t'.flows.find id = some row →
      id ∉ t'.oldestFlows (t.overflow settings) ∧ row.expired settings now = false := by
    intro id row hrow
    rw [hflows] at hrow
    have hkept := h.flows id row hrow
    unfold Tables.keptFlow Tables.oldestFlows at hkept
    unfold Tables.oldestFlows
    rw [hflows]
    simpa using hkept
  rcases List.mem_cons.mp hf with rfl | hf
  · exact ht
  rcases List.mem_append.mp hf with hf | hf
  · split at hf
    · obtain rfl := List.mem_singleton.mp hf
      change (t'.deleteFlows fun id _ => id ∈ t'.oldestFlows (t.overflow settings)).shown = _
      rw [deleteFlows_eq_self fun id row hrow => decide_eq_false (hkept id row hrow).1, ht]
    · cases hf
  · rcases policyDelete_idle hf (fun id row hrow => (hkept id row hrow).2) (htraffic ▸ h.traffic)
      (hentities ▸ h.entities) with hself | ⟨keep, happlications⟩ | hobservation
    · rw [hself, ht]
    · rw [happlications]
      exact ht
    · rw [hobservation]
      exact ht

theorem Tables.Still.shown_starts (h : t.Still settings now) :
    ∀ t' ∈ starts (policyStatements settings now t) t, t'.shown = t.shown :=
  forall_starts (P := fun t' => t'.shown = t.shown) (fun _ hf _ ht => h.shown_delete hf ht) rfl

theorem enforced_eq_after :
    t.enforced settings now = Tables.after (policyStatements settings now t) t := by
  change _ = Tables.after (_ ++ _) t
  rw [Tables.after_append, after_capacity]
  rfl

theorem shown_enforced_iff : (t.enforced settings now).shown = t.shown ↔ t.Still settings now := by
  constructor
  · intro h
    obtain ⟨hflows, -, htraffic, hentities⟩ := shown_eq_iff.mp h
    have hbuckets : (t.enforced settings now).buckets = _ := Tables.buckets_enforced
    obtain ⟨htraffic', hrest⟩ := Prod.ext_iff.mp hbuckets
    obtain ⟨hentities', -⟩ := Prod.ext_iff.mp hrest
    rw [Tables.flows_enforced] at hflows
    exact ⟨Table.filter_eq_self_iff.mp hflows,
      Table.filter_eq_self_iff.mp (htraffic'.symm.trans htraffic),
      Table.filter_eq_self_iff.mp (hentities'.symm.trans hentities)⟩
  · intro h
    rw [enforced_eq_after]
    exact List.foldlRecOn (motive := fun t' => Tables.shown t' = t.shown) _ _ rfl
      fun _ ht _ hf => h.shown_delete hf ht

end Still

/-! ## An interval that brings nothing -/

section Idle

variable {flowId : FlowKey → UInt64} {input : IngestInput} {db : TrafficDb} {t : Tables}
  {settings : Settings} {nowInstant : Instant} {now : SystemTime} {faults : List (Option String)}

/-- A policy that deletes nothing of what pages show leaves it, wherever it stops. -/
theorem shown_enforcePolicy
    (h : db.policyDue nowInstant = true → db.tables.Still settings now) :
    (enforcePolicy settings nowInstant now ⟨db, faults⟩).2.store.tables.shown = db.tables.shown := by
  refine Visits.leaves (P := fun t => t.shown = db.tables.shown) visits_enforcePolicy ?_ ?_ faults
  · unfold enforced
    split
    · next hdue => exact shown_enforced_iff.mpr (h hdue)
    · rfl
  · split
    · next hdue => exact (h hdue).shown_starts
    · intro t ht
      cases ht

/-- One that runs to its end. -/
theorem shown_enforcePolicy_iff :
    (enforcePolicy settings nowInstant now ⟨db, []⟩).2.store.tables.shown = db.tables.shown ↔
      (db.policyDue nowInstant = true → db.tables.Still settings now) := by
  refine ⟨fun h hdue => ?_, shown_enforcePolicy⟩
  rw [visits_enforcePolicy.result] at h
  change (db.enforced settings nowInstant now).tables.shown = _ at h
  unfold enforced at h
  rw [if_pos hdue] at h
  exact shown_enforced_iff.mp h

theorem shown_of_traffic {t' : Tables} (h : t'.traffic = t.traffic) : t'.shown = t.shown := by
  obtain ⟨hobserved, htraffic, hentities⟩ := traffic_eq_iff.mp h
  obtain ⟨hflows, hdomains, -, -⟩ := Tables.observed_eq_iff.mp hobserved
  exact shown_eq_iff.mpr ⟨hflows, hdomains, htraffic, hentities⟩

theorem shown_tryIngest (hflows : input.batch.flows = []) (hdomains : input.batch.domains = [])
    (h : db.policyDue input.policyInstant = true → db.tables.Still input.settings input.nowSystem) :
    (tryIngest flowId input ⟨db, faults⟩).2.store.tables.shown = db.tables.shown := by
  have hnone : input.batch.domains.filterMap (observationRow input) = [] := by rw [hdomains]; rfl
  rcases tryIngest_cases input flowId db faults with ⟨recorded, c, hrun, -⟩ | ⟨-, htables⟩
  · rw [shown_of_traffic (traffic_tryIngest_recorded hflows hnone hrun)]
    exact shown_enforcePolicy h
  · rw [htables]

theorem shown_tryIngest_iff (hflows : input.batch.flows = []) (hdomains : input.batch.domains = []) :
    (tryIngest flowId input ⟨db, []⟩).2.store.tables.shown = db.tables.shown ↔
      (db.policyDue input.policyInstant = true →
        db.tables.Still input.settings input.nowSystem) := by
  refine ⟨fun hshown => ?_, shown_tryIngest hflows hdomains⟩
  have hnone : input.batch.domains.filterMap (observationRow input) = [] := by rw [hdomains]; rfl
  obtain ⟨recorded, stored, hrecord⟩ : ∃ recorded stored, Visits
      (record input flowId (attached input db.interfaces)) (attachedDb input db)
        [(attachedDb input db).tables] recorded stored := visits_record
  rw [shown_of_traffic (traffic_tryIngest_recorded hflows hnone hrecord.result)] at hshown
  have hpolicy : (enforcePolicy input.settings input.policyInstant input.nowSystem
      ⟨attachedDb input db, []⟩).2.store.tables.shown = (attachedDb input db).tables.shown := hshown
  have hstill := shown_enforcePolicy_iff.mp hpolicy
  exact hstill

end Idle

/-! ## A database and its pages -/

def OverviewPage.young (page : OverviewPage) (instant : Instant) : Bool :=
  instant.saturatingDurationSince page.cachedAt < overviewPageCacheTtl

/-- A database with its pages, the monotonic clock, and the tables that the page of each key was
computed from. -/
structure CachedDb where
  db : Db
  pages : OverviewPages := ∅
  clock : Instant := 0
  sources : String → Tables := fun _ => {}

inductive CacheEvent
  | overview (q : OverviewQuery) (now : SystemTime) (lookedUpAt storedAt : Instant)
      (faults : List (Option String))
  | store (event : StoreEvent)

/-- The pages that are left after an event. -/
def StoreEvent.keptPages (db : Db) (pages : OverviewPages) : StoreEvent → OverviewPages
  | .ingest input _ => input.keptPages pages
  | .saveSettings _ _ _ faults =>
    if ((execute id : TrafficDb.Action Unit) ⟨db.traffic, faults⟩).1.isOk then ∅ else pages
  | .createExport .. | .deleteExport .. => pages
  | .clearHistory .. | .restart .. => ∅

/-- The last time that an event reads the monotonic clock. -/
def StoreEvent.clock (clock : Instant) : StoreEvent → Instant
  | .ingest input _ => input.policyInstant
  | .saveSettings _ nowInstant _ _ => nowInstant
  | _ => clock

namespace CachedDb

/-- The page that a request finds. -/
def kept (s : CachedDb) (q : OverviewQuery) (lookedUpAt : Instant) : Option OverviewPage :=
  (AList.lookup q.key s.pages).filter fun page => page.young lookedUpAt

variable (flowId : FlowKey → UInt64)

def next (s : CachedDb) : CacheEvent → CachedDb
  | .overview q now lookedUpAt storedAt faults =>
    let (result, c) := Db.onTraffic (TrafficDb.overview q.range q.excludeScope q.interface now
      lookedUpAt storedAt s.pages) ⟨s.db, faults⟩
    match result with
    | .ok (_, pages) => {
        db := c.store
        pages
        clock := storedAt
        sources := if (s.kept q lookedUpAt).isSome then s.sources
          else Function.update s.sources q.key s.db.traffic.tables }
    | .error _ => { s with db := c.store, clock := storedAt }
  | .store event => {
      db := s.db.next flowId event
      pages := event.keptPages s.db s.pages
      clock := event.clock s.clock
      sources := s.sources }

/-- The monotonic clock does not go back. -/
def Ordered (s : CachedDb) : CacheEvent → Prop
  | .overview _ _ lookedUpAt storedAt _ => s.clock ≤ lookedUpAt ∧ lookedUpAt ≤ storedAt
  | .store event => s.clock ≤ event.clock s.clock

instance (s : CachedDb) : DecidablePred s.Ordered
  | .overview _ _ lookedUpAt storedAt _ =>
    inferInstanceAs (Decidable (s.clock ≤ lookedUpAt ∧ lookedUpAt ≤ storedAt))
  | .store event => inferInstanceAs (Decidable (s.clock ≤ event.clock s.clock))

/-- Whatever page a request finds from now on shows the tables as they are: nothing has changed
since it was computed, and a computation for the time that it was generated at gives the same. -/
def Current (s : CachedDb) : Prop :=
  ∀ q lookedUpAt page, s.clock ≤ lookedUpAt → s.kept q lookedUpAt = some page →
    (s.sources q.key).shown = s.db.traffic.tables.shown ∧
      (q.compute page.overview.now ⟨s.db.traffic, []⟩).1 = .ok page.overview

/-- A policy that runs in an ingest without flows and observations deletes no flow and no bucket
while there is a page to serve. -/
def PolicySpares (s : CachedDb) : CacheEvent → Prop
  | .store (.ingest input _) => input.batch.flows = [] → input.batch.domains = [] →
      s.db.traffic.policyDue input.policyInstant = true →
        (∃ q page, s.kept q input.policyInstant = some page) →
          s.db.traffic.tables.Still input.settings input.nowSystem
  | _ => True

end CachedDb

/-- No statement of the event fails. -/
def CacheEvent.Undisturbed : CacheEvent → Prop
  | .overview _ _ _ _ faults | .store (.ingest _ faults) | .store (.saveSettings _ _ _ faults)
  | .store (.createExport _ _ _ faults) | .store (.deleteExport _ _ faults)
  | .store (.clearHistory _ faults) => faults = []
  | .store (.restart ..) => True

/-- The runs of events that meet a condition, from any file. -/
def caches (flowId : FlowKey → UInt64) (cond : CachedDb → CacheEvent → Prop) : System CachedDb where
  init s := (∃ tables exports flowCapacity exportTtl,
    s.db = Db.restart tables exports flowCapacity exportTtl) ∧ s.pages = ∅
  step s s' := ∃ event, s.Ordered event ∧ cond s event ∧ s' = s.next flowId event

/-! ## One step -/

section Steps

variable {flowId : FlowKey → UInt64} {s : CachedDb} {q : OverviewQuery} {now : SystemTime}
  {lookedUpAt storedAt : Instant} {faults : List (Option String)} {page : OverviewPage}
  {key : String} {event : CacheEvent}

theorem OverviewPage.young_of_le {instant instant' : Instant} (h : page.young instant' = true)
    (hle : instant ≤ instant') : page.young instant = true := by
  have hage : instant.saturatingDurationSince page.cachedAt ≤
      instant'.saturatingDurationSince page.cachedAt :=
    Int.toNat_le_toNat (Int.sub_le_sub_right hle _)
  exact decide_eq_true (hage.trans_lt (of_decide_eq_true h))

theorem kept_eq_some_iff : s.kept q lookedUpAt = some page ↔
    AList.lookup q.key s.pages = some page ∧ page.young lookedUpAt = true := by
  unfold CachedDb.kept
  rw [Option.filter_eq_some_iff]

theorem readOnly_overview {pages : OverviewPages} : ReadOnly
    (TrafficDb.overview q.range q.excludeScope q.interface now lookedUpAt storedAt pages) := by
  have hsums : ∀ {α : Type} {f : Tables → Except ApiError α}, ReadOnly (selectSums f) :=
    .bind .query fun _ => .ofExcept
  have haside : ∀ {count : ℕ}, ReadOnly (readAside count) := by
    intro count
    unfold readAside
    induction count with
    | zero => exact .pure
    | succ count ih => exact .bind .query fun _ => ih
  unfold TrafficDb.overview
  simp only
  split
  · exact .pure
  · refine .bind ?_ fun _ => .pure
    exact .bind .ofExcept fun _ => .bind hsums fun _ => .bind .query fun _ => .bind haside fun _ =>
      .bind hsums fun _ => .bind hsums fun _ => .bind haside fun _ => .pure

theorem filter_pages : (AList.lookup (overviewPageKey q.range q.excludeScope q.interface)
    s.pages).filter (fun page =>
      lookedUpAt.saturatingDurationSince page.cachedAt < overviewPageCacheTtl) =
    s.kept q lookedUpAt := rfl

/-- A request that finds a page serves it. -/
theorem overview_of_kept {c : Conn TrafficDb} (h : s.kept q lookedUpAt = some page) :
    TrafficDb.overview q.range q.excludeScope q.interface now lookedUpAt storedAt s.pages c =
      (.ok (page.overview, s.pages), c) := by
  unfold TrafficDb.overview
  simp only [filter_pages, h]
  rfl

/-- Any other computes one, and keeps it. -/
theorem overview_of_none {c c' : Conn TrafficDb} {answer : OverviewDto × OverviewPages}
    (h : s.kept q lookedUpAt = none)
    (hrun : TrafficDb.overview q.range q.excludeScope q.interface now lookedUpAt storedAt s.pages c =
      (.ok answer, c')) : q.page now c.store.tables = .ok answer.1 ∧
        answer.2 = s.pages.store q.key ⟨storedAt, answer.1⟩ := by
  unfold TrafficDb.overview at hrun
  simp only [filter_pages, h] at hrun
  obtain ⟨o, c₁, hcompute, hanswer⟩ := bind_eq_ok.mp hrun
  obtain rfl := Except.ok.inj (congrArg Prod.fst hanswer)
  have hcomputed := (computes_overview.ends c.store).of_eq hcompute rfl
  exact ⟨hcomputed.1, rfl⟩

/-- A request leaves the database alone, and keeps at most the page it computes. -/
theorem overview_cases (s : CachedDb) (q : OverviewQuery) (now : SystemTime)
    (lookedUpAt storedAt : Instant) (faults : List (Option String)) :
    ∃ pages sources, s.next flowId (.overview q now lookedUpAt storedAt faults) =
        { db := s.db, pages, clock := storedAt, sources } ∧
      (pages = s.pages ∧ sources = s.sources ∨
        ∃ o, q.page now s.db.traffic.tables = .ok o ∧ pages = s.pages.store q.key ⟨storedAt, o⟩ ∧
          sources = Function.update s.sources q.key s.db.traffic.tables) := by
  have hstore : (TrafficDb.overview q.range q.excludeScope q.interface now lookedUpAt storedAt s.pages
      ⟨s.db.traffic, faults⟩).2.store = s.db.traffic := readOnly_overview _
  unfold CachedDb.next Db.onTraffic
  simp only
  cases hkept : s.kept q lookedUpAt with
  | some page =>
    rw [overview_of_kept hkept]
    exact ⟨_, _, rfl, .inl ⟨rfl, rfl⟩⟩
  | none =>
    generalize hrun : TrafficDb.overview q.range q.excludeScope q.interface now lookedUpAt storedAt
      s.pages ⟨s.db.traffic, faults⟩ = run at hstore
    obtain ⟨error | answer, c⟩ := run
    · obtain ⟨store, rest⟩ := c
      obtain rfl : store = s.db.traffic := hstore
      exact ⟨_, _, rfl, .inl ⟨rfl, rfl⟩⟩
    · obtain ⟨hpage, hpages⟩ := overview_of_none hkept hrun
      obtain ⟨store, rest⟩ := c
      obtain rfl : store = s.db.traffic := hstore
      exact ⟨_, _, rfl, .inr ⟨answer.1, hpage, hpages, rfl⟩⟩

theorem isOk_execute {f : Tables → Tables} {c : Conn TrafficDb} :
    (TrafficDb.execute f c).1.isOk = (c.faults.headD none).isNone := by
  unfold TrafficDb.execute Storage.execute
  cases hfault : c.faults.headD none with
  | none =>
    rw [statement_of_none hfault]
    rfl
  | some error =>
    rw [statement_of_some hfault]
    rfl

/-- An event of the store drops every page, or drops none: then it changes nothing that pages show,
or it is an ingest that brings nothing. -/
theorem keptPages_cases (flowId : FlowKey → UInt64) (s : CachedDb) (event : StoreEvent) :
    event.keptPages s.db s.pages = ∅ ∨ event.keptPages s.db s.pages = s.pages ∧
      ((s.db.next flowId event).traffic.tables.shown = s.db.traffic.tables.shown ∨
        ∃ input faults, event = .ingest input faults ∧ input.batch.flows = [] ∧
          input.batch.domains = []) := by
  cases event with
  | ingest input faults =>
    by_cases hbrings : input.batch.flows ≠ [] ∨ input.batch.domains ≠ []
    · exact .inl (if_pos hbrings)
    · rw [not_or, not_not, not_not] at hbrings
      refine .inr ⟨if_neg ?_, .inr ⟨input, faults, rfl, hbrings⟩⟩
      rwa [not_or, not_not, not_not]
  | saveSettings settings nowInstant now faults =>
    have hok : ((TrafficDb.execute id : TrafficDb.Action Unit) ⟨s.db.traffic, faults⟩).1.isOk =
        (faults.headD none).isNone := isOk_execute
    cases hfault : faults.headD none with
    | none =>
      rw [hfault] at hok
      exact .inl (if_pos hok)
    | some error =>
      rw [hfault] at hok
      refine .inr ⟨if_neg (by rw [hok]; exact Bool.false_ne_true), .inl ?_⟩
      change ((execute id >>= fun _ => enforcePolicy settings nowInstant now : TrafficDb.Action Unit)
        ⟨s.db.traffic, faults⟩).2.store.tables.shown = _
      rw [execute_then_of_some hfault]
  | createExport request context clock faults =>
    refine .inr ⟨rfl, .inl ?_⟩
    change (Db.createExport request context clock ⟨s.db, faults⟩).2.store.traffic.tables.shown = _
    rw [traffic_createExport]
  | deleteExport id now faults =>
    refine .inr ⟨rfl, .inl ?_⟩
    change (Db.deleteExport id now ⟨s.db, faults⟩).2.store.traffic.tables.shown = _
    rw [traffic_deleteExport]
  | clearHistory now faults => exact .inl rfl
  | restart flowCapacity exportTtl => exact .inl rfl

end Steps

/-! ## Runs -/

section Runs

variable {flowId : FlowKey → UInt64} {s : CachedDb} {event : CacheEvent}

/-- Every page to be served was computed, for a request of its key, from tables that show what the
tables show now. -/
def CachedDb.Inv (s : CachedDb) : Prop :=
  ∀ key page, AList.lookup key s.pages = some page → page.young s.clock = true →
    ∃ q : OverviewQuery, q.key = key ∧ q.page page.overview.now (s.sources key) = .ok page.overview ∧
      (s.sources key).shown = s.db.traffic.tables.shown

theorem CachedDb.Inv.current (h : s.Inv) : s.Current := by
  intro q lookedUpAt page hle hkept
  obtain ⟨hpage, hyoung⟩ := kept_eq_some_iff.mp hkept
  obtain ⟨q', hkey, hcomputed, hshown⟩ := h _ _ hpage (OverviewPage.young_of_le hyoung hle)
  exact ⟨hshown, compute_of_page ((page_congr_key hkey.symm).trans hcomputed) hshown.symm⟩

theorem inv_overview {q : OverviewQuery} {now : SystemTime} {lookedUpAt storedAt : Instant}
    {faults : List (Option String)} (h : s.Inv)
    (hordered : s.Ordered (.overview q now lookedUpAt storedAt faults)) :
    (s.next flowId (.overview q now lookedUpAt storedAt faults)).Inv := by
  have hlater : s.clock ≤ storedAt := hordered.1.trans hordered.2
  obtain ⟨pages, sources, hnext, hcases⟩ := overview_cases s q now lookedUpAt storedAt faults
  rw [hnext]
  intro key page hpage hyoung
  rcases hcases with ⟨rfl, rfl⟩ | ⟨o, hcomputed, rfl, rfl⟩
  · exact h key page hpage (OverviewPage.young_of_le hyoung hlater)
  · by_cases hkey : key = q.key
    · subst hkey
      obtain rfl : page = ⟨storedAt, o⟩ := by
        rw [OverviewPages.store, AList.lookup_insert] at hpage
        exact (Option.some.inj hpage).symm
      refine ⟨q, rfl, ?_⟩
      simp only [Function.update_self, now_of_page hcomputed]
      exact ⟨hcomputed, trivial⟩
    · simp only [Function.update_of_ne hkey]
      have hold := (OverviewPages.lookup_store hpage).resolve_left fun hsame => hkey hsame.1
      exact h key page hold (OverviewPage.young_of_le hyoung hlater)

theorem inv_store {event : StoreEvent} (h : s.Inv) (hordered : s.Ordered (.store event))
    (hspares : s.PolicySpares (.store event)) : (s.next flowId (.store event)).Inv := by
  intro key page hpage hyoung
  change AList.lookup key (event.keptPages s.db s.pages) = some page at hpage
  rcases keptPages_cases flowId s event with hnone | ⟨hall, hcases⟩
  · rw [hnone] at hpage
    simp at hpage
  · rw [hall] at hpage
    obtain ⟨q, rfl, hcomputed, hshown⟩ := h key page hpage (OverviewPage.young_of_le hyoung hordered)
    have hkept : s.kept q (event.clock s.clock) = some page := kept_eq_some_iff.mpr ⟨hpage, hyoung⟩
    have hsame : (s.db.next flowId event).traffic.tables.shown = s.db.traffic.tables.shown := by
      rcases hcases with hsame | ⟨input, faults, rfl, hflows, hdomains⟩
      · exact hsame
      · change (s.db.ingest flowId input faults).traffic.tables.shown = _
        rw [traffic_ingest]
        exact shown_tryIngest hflows hdomains fun hdue =>
          hspares hflows hdomains hdue ⟨q, page, hkept⟩
    exact ⟨q, rfl, hcomputed, hshown.trans hsame.symm⟩

theorem inv_next (h : s.Inv) (hordered : s.Ordered event) (hspares : s.PolicySpares event) :
    (s.next flowId event).Inv := by
  cases event with
  | overview q now lookedUpAt storedAt faults => exact inv_overview h hordered
  | store event => exact inv_store h hordered hspares

theorem policySpares_of_current (h : s.Current) (hordered : s.Ordered event)
    (hevent : event.Undisturbed) (hnext : (s.next flowId event).Current) : s.PolicySpares event := by
  cases event with
  | overview q now lookedUpAt storedAt faults => trivial
  | store event =>
    cases event with
    | ingest input faults =>
      obtain rfl : faults = [] := hevent
      rintro hflows hdomains hdue ⟨q, page, hkept⟩
      have hpages : input.keptPages s.pages = s.pages := by
        unfold IngestInput.keptPages
        rw [if_neg (by simp [hflows, hdomains])]
      have hstill : (s.next flowId (.store (.ingest input []))).kept q input.policyInstant =
          some page := by
        obtain ⟨hpage, hyoung⟩ := kept_eq_some_iff.mp hkept
        refine kept_eq_some_iff.mpr ⟨?_, hyoung⟩
        change AList.lookup q.key (input.keptPages s.pages) = some page
        rw [hpages]
        exact hpage
      -- The page shows the tables as they were before the interval, and as they are after it.
      have hbefore := (h q input.policyInstant page hordered hkept).1
      have hafter := (hnext q input.policyInstant page le_rfl hstill).1
      change (s.sources q.key).shown = (s.db.ingest flowId input []).traffic.tables.shown at hafter
      rw [hbefore, traffic_ingest] at hafter
      exact (shown_tryIngest_iff hflows hdomains).mp hafter.symm hdue
    | saveSettings settings nowInstant now faults => trivial
    | createExport request context clock faults => trivial
    | deleteExport id now faults => trivial
    | clearHistory now faults => trivial
    | restart flowCapacity exportTtl => trivial

/-- In every run whose policies delete nothing under a page to be served, what is served from the
cache is what a computation over the tables as they are would give; from there on, an event of
which no statement fails leaves it so if and only if its policy deletes nothing under a page. -/
theorem pages_current (hr : (caches flowId CachedDb.PolicySpares).Reachable s) :
    s.Current ∧ ∀ event : CacheEvent, s.Ordered event → event.Undisturbed →
      ((s.next flowId event).Current ↔ s.PolicySpares event) := by
  have h : s.Inv := by
    apply hr.invariant (P := CachedDb.Inv)
    · rintro s ⟨-, hpages⟩ key page hpage
      rw [hpages] at hpage
      simp at hpage
    · rintro s _ hinv ⟨event, hordered, hspares, rfl⟩
      exact inv_next hinv hordered hspares
  refine ⟨h.current, fun event hordered hevent => ?_⟩
  exact ⟨policySpares_of_current h.current hordered hevent,
    fun hspares => (inv_next h hordered hspares).current⟩

end Runs

/-- A page is computed of the flow of an interval. -/
def overviewedDb : CachedDb :=
  (({ db := Db.restart {} ∅ 65536 60000000000 } : CachedDb).next (fun _ => 7)
    (.store (.ingest oneUpdate []))).next (fun _ => 7)
      (.overview { range := .minute15 } 1700000000600000000 600000000 600000009 [])

theorem pages_current_served : overviewedDb.Current ∧
    (overviewedDb.kept { range := .minute15 } 1600000000).map (fun page => page.overview.flowsTotal) =
      some 1 := by
  have hr : (caches (fun _ => 7) CachedDb.PolicySpares).Reachable overviewedDb := by
    refine .step (.step (.init ⟨⟨{}, ∅, 65536, 60000000000, rfl⟩, rfl⟩)
      ⟨.store (.ingest oneUpdate []), ?_, ?_, rfl⟩)
      ⟨.overview { range := .minute15 } 1700000000600000000 600000000 600000009 [], ?_, trivial, rfl⟩
    · decide
    · intro hflows
      cases hflows
    · decide
  exact ⟨(pages_current hr).1, by decide +kernel⟩

/-! ## Time alone -/

/-- With history off, a flow that ended goes with the next policy. -/
def endedInterval : IngestInput :=
  { lanInterval noHistory [lanUpdate ⟨1, 100⟩ ⟨4, 400⟩ (.ended .tcpFin)] with
    nowInstant := 4000000000
    nowSystem := 1700000004000000000
    policyInstant := 4000000001 }

/-- By then no traffic is left. -/
def silentInterval : IngestInput :=
  { lanInterval noHistory [] with
    nowInstant := 5000000020
    nowSystem := 1700000005000000020
    policyInstant := 5000000021 }

/-- An active flow, the same ended before the policy is due again, and a page. -/
def endedDb : CachedDb :=
  ((({ db := Db.restart {} ∅ 65536 60000000000 } : CachedDb).next (fun _ => 7) (.store (.ingest
    (lanInterval noHistory [lanUpdate ⟨3, 300⟩ ⟨3, 300⟩ .active]) []))).next (fun _ => 7)
      (.store (.ingest endedInterval []))).next (fun _ => 7)
        (.overview { range := .minute15 } 1700000004600000000 4600000000 4600000009 [])

def silentDb : CachedDb := endedDb.next (fun _ => 7) (.store (.ingest silentInterval []))

/-- The policy of an empty batch deletes the flow, and the page that counts it is served. -/
theorem deleted_flow_served :
    ¬ ∀ (flowId : FlowKey → UInt64) (s : CachedDb),
      (caches flowId fun _ _ => True).Reachable s → s.Current := by
  intro h
  have hr : (caches (fun _ => 7) fun _ _ => True).Reachable silentDb := by
    refine .step (.step (.step (.step (.init ⟨⟨{}, ∅, 65536, 60000000000, rfl⟩, rfl⟩)
      ⟨.store (.ingest (lanInterval noHistory [lanUpdate ⟨3, 300⟩ ⟨3, 300⟩ .active]) []), ?_, trivial,
        rfl⟩)
      ⟨.store (.ingest endedInterval []), ?_, trivial, rfl⟩)
      ⟨.overview { range := .minute15 } 1700000004600000000 4600000000 4600000009 [], ?_, trivial,
        rfl⟩)
      ⟨.store (.ingest silentInterval []), ?_, trivial, rfl⟩
    · decide
    · decide
    · decide
    · decide +kernel
  have hserved : (silentDb.kept { range := .minute15 } 5000000021).map (fun page =>
      (page.overview.now, page.overview.flowsTotal)) = some (1700000004600000000, 1) := by
    decide +kernel
  have hfresh : ((OverviewQuery.compute { range := .minute15 } 1700000004600000000
      ⟨silentDb.db.traffic, []⟩).1.toOption.map OverviewDto.flowsTotal) = some 0 := by
    decide +kernel
  obtain ⟨page, hkept, hpage⟩ := Option.map_eq_some_iff.mp hserved
  have hcomputed := (h _ _ hr _ _ page (by decide +kernel) hkept).2
  obtain ⟨hnow, hcount⟩ := Prod.mk.inj hpage
  rw [hnow] at hcomputed
  rw [hcomputed] at hfresh
  change some page.overview.flowsTotal = some 0 at hfresh
  rw [hcount] at hfresh
  cases hfresh

end ZimaScope
