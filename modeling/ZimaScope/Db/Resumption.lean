import Mathlib.Tactic.FinCases
import ZimaScope.Db.Interruption

/-! # Opening a database after an interrupted upgrade

The two defects of the upgrade stay in the file once they are in it: a table
under the name it has while it is copied, and a flow that waits for its scope in
a table with the column. Every other interrupted upgrade is taken up again.
-/

namespace ZimaScope

open Storage

namespace DbFile

/-! ## What every statement keeps -/

section Kept

variable {I : DbFile → Prop} {order : ScopeOrder}

theorem keeps_addColumnIfMissing {c : FlowColumn} (h : ∀ s, I s → I (addColumn c s)) :
    Keeps (addColumnIfMissing c) I := by
  refine .bind .query fun present => ?_
  split
  · exact .pure
  · exact .bind (.execute h) fun _ => .pure

theorem ends_addColumnIfMissing {c : FlowColumn} {s : DbFile} :
    Ends (addColumnIfMissing c) (fun added _ => added = !s.hasColumn c) s := by
  refine .bind (.query ?_)
  split
  · next h => exact .pure (by simp [h])
  · next h => exact .bind (.execute (.pure (by simpa using h)))

/-- An invariant of every statement is one of the upgrade. -/
theorem keeps_fromConnection (hrules : ∀ s, I s → I s.dropRules)
    (hobservations : Keeps (rebuild observationsV9 observationsPart) I)
    (htraffic : Keeps (rebuild trafficBucketsV10 trafficBucketsPart) I)
    (hentities : Keeps (rebuild entityBucketsV10 entityBucketsPart) I)
    (hschema : ∀ f ∈ schemaSql, ∀ s s', I s → f s = .ok s' → I s')
    (hcolumn : ∀ c s, I s → I (addColumn c s))
    (hscopes : ∀ s, I s → s.hasColumn .dstScope = false → Keeps (backfillDstScope order) I)
    (hdomains : ∀ s, I s → I (onTables Tables.backfillFlowDomains s))
    (hstats : ∀ s, I s → I (onTables Tables.backfillFlowStats s))
    (hversion : ∀ s, I s → I { s with userVersion := schemaVersion }) :
    Keeps (fromConnection order) I := by
  refine .bind .query fun version => .bind (.guarded ?_) fun _ => .query
  refine .bind (.guarded (.execute hrules)) fun _ => ?_
  refine .bind (.guarded hobservations) fun _ => ?_
  refine .bind (.guarded (.bind htraffic fun _ => hentities)) fun _ => ?_
  refine .bind (.forM fun f hf => .attempt (hschema f hf)) fun _ => ?_
  refine .bind (keeps_addColumnIfMissing (hcolumn _)) fun _ => ?_
  refine .bind (keeps_addColumnIfMissing (hcolumn _)) fun _ => ?_
  refine .bind_of (Q := fun added => ∃ s, I s ∧ added = !s.hasColumn .dstScope)
    (keeps_addColumnIfMissing (hcolumn _)) ?_ ?_
  · intro s hs
    exact ends_addColumnIfMissing.mono fun added _ hadded => ⟨s, hs, hadded⟩
  rintro _ ⟨s, hs, rfl⟩
  refine .bind ?_ fun _ => .bind (.guarded ?_) fun _ => .bind (.guarded (.execute hstats)) fun _ =>
    .execute hversion
  · cases hmissing : s.hasColumn .dstScope with
    | true => exact .pure
    | false => exact .guarded (hscopes s hs hmissing)
  · exact .bind (.execute fun _ h => h) fun _ => .bind (.execute fun _ h => h) fun _ =>
      .execute hdomains

variable {κ α κ' α' : Type} [DecidableEq κ'] {w : Widening κ α κ' α'} {part : Part (Slot κ α κ' α')}

theorem keeps_rebuild (h : ∀ s c, I s → I (part.set s c)) : Keeps (rebuild w part) I := by
  refine .bind .query fun tableExists => ?_
  split
  · refine .forM fun f _ => .attempt fun s s' hs hf => ?_
    obtain ⟨c, -, rfl⟩ := Except.map_eq_ok.mp hf
    exact h s c hs
  · exact .pure

/-- A table under its old name is never renamed, and so never dropped. -/
theorem keeps_rebuild_renamed :
    Keeps (rebuild w part) fun s => (part.get s).renamed ≠ none := by
  refine .bind .query fun tableExists => ?_
  split
  · refine .stuck fun s hs => ?_
    unfold Part.on Slot.rename
    obtain ⟨old, hold⟩ := Option.ne_none_iff_exists'.mp hs
    rw [hold]
    cases (part.get s).table with
    | none => exact ⟨_, rfl⟩
    | some t => exact ⟨_, rfl⟩
  · exact .pure

/-- The statements of the schema, without the indexes. -/
def creations : List (DbFile → DbFile) :=
  [createFlows, createFlowDomains, createFlowStats, insertFlowStats, createOther .applications,
    createObservations, createTrafficBuckets, createEntityBuckets, createOther .entityRates,
    createOther .settings, createOther .exports, createRules]

theorem schemaSql_keeps (h : ∀ g ∈ creations, ∀ s, I s → I (g s)) :
    ∀ f ∈ schemaSql, ∀ s s', I s → f s = .ok s' → I s' := by
  have hcreation : ∀ g ∈ creations, ∀ s s', I s → (Except.ok ∘ g : DbFile → Except String DbFile) s =
      .ok s' → I s' := by
    intro g hg s s' hs hf
    obtain rfl := Except.ok.inj hf
    exact h g hg s hs
  have hindex : ∀ s s', I s → (Except.ok ∘ createIndex : DbFile → Except String DbFile) s = .ok s' →
      I s' := by
    intro s s' hs hf
    obtain rfl := Except.ok.inj hf
    exact hs
  have happ : ∀ s s', I s → createAppIndex s = .ok s' → I s' := by
    intro s s' hs hf
    unfold createAppIndex at hf
    split at hf
    · obtain rfl := Except.ok.inj hf
      exact hs
    · simp at hf
  simp only [creations, List.forall_mem_cons, List.not_mem_nil, false_imp_iff, implies_true,
    and_true] at hcreation
  simp only [schemaSql, List.forall_mem_cons, List.not_mem_nil, false_imp_iff, implies_true, and_true]
  tauto

/-! ## The two defects -/

theorem keeps_backfillDstScope (h : ∀ scope s, I s → I (setDstScope scope s)) :
    Keeps (backfillDstScope order) I := by
  refine .bind .query fun scopes => .forM fun scope _ => .execute (h scope)

theorem not_noneRenamed {s : DbFile} : ¬ s.NoneRenamed ↔ s.observations.renamed ≠ none ∨
    s.trafficBuckets.renamed ≠ none ∨ s.entityBuckets.renamed ≠ none := by
  rw [noneRenamed_iff]
  tauto

theorem noneRenamed_creations {g : DbFile → DbFile} (hg : g ∈ creations) {s : DbFile} :
    (g s).NoneRenamed ↔ s.NoneRenamed := by
  simp only [noneRenamed_iff]
  fin_cases hg <;> rfl

/-- A table under its old name stays there. -/
theorem keeps_renamed : Keeps (fromConnection order) fun s => ¬ s.NoneRenamed := by
  simp only [not_noneRenamed]
  have hfirst : Keeps (rebuild observationsV9 observationsPart) fun s =>
      s.observations.renamed ≠ none ∨ s.trafficBuckets.renamed ≠ none ∨
        s.entityBuckets.renamed ≠ none :=
    keeps_rebuild_renamed.or (keeps_rebuild fun _ _ h => h)
  have hsecond : Keeps (rebuild trafficBucketsV10 trafficBucketsPart) fun s =>
      s.observations.renamed ≠ none ∨ s.trafficBuckets.renamed ≠ none ∨
        s.entityBuckets.renamed ≠ none :=
    (keeps_rebuild fun _ _ h => h).or (keeps_rebuild_renamed.or (keeps_rebuild fun _ _ h => h))
  have hthird : Keeps (rebuild entityBucketsV10 entityBucketsPart) fun s =>
      s.observations.renamed ≠ none ∨ s.trafficBuckets.renamed ≠ none ∨
        s.entityBuckets.renamed ≠ none :=
    (keeps_rebuild fun _ _ h => h).or ((keeps_rebuild fun _ _ h => h).or keeps_rebuild_renamed)
  apply keeps_fromConnection (fun _ h => h) hfirst hsecond hthird (schemaSql_keeps ?_)
  · exact fun _ _ h => h
  · exact fun _ _ _ => keeps_backfillDstScope fun _ _ h => h
  · exact fun _ h => h
  · exact fun _ h => h
  · exact fun _ h => h
  · intro g hg s hs
    rw [← not_noneRenamed] at hs ⊢
    rwa [noneRenamed_creations hg]

/-- What is about the flows alone. -/
theorem keeps_flows {J : Option FlowsTable → Prop} (hcreate : ∀ flows, J flows → J (some (flows.getD {})))
    (hcolumn : ∀ c s, J s.flows → J (addColumn c s).flows)
    (hscopes : ∀ s : DbFile, J s.flows → s.hasColumn .dstScope = false →
      ∀ scope t, J t.flows → J (setDstScope scope t).flows) :
    Keeps (fromConnection order) fun s => J s.flows := by
  have hmirrors : ∀ {f : Tables → Tables}, (∀ t, (f t).flows = t.flows) →
      ∀ s : DbFile, (onTables f s).flows = s.flows := by
    intro f hf s
    unfold onTables
    cases hflows : s.flows with
    | none => rfl
    | some flows =>
      have hrows : s.tables.flows = flows.rows := by simp [tables, hflows]
      simp [hf, hrows]
  have hdomains := hmirrors (f := Tables.backfillFlowDomains) fun t => by
    rw [Tables.backfillFlowDomains_eq]
  have hstats := hmirrors (f := Tables.backfillFlowStats) fun t => rfl
  apply keeps_fromConnection (fun _ h => h) (keeps_rebuild fun _ _ h => h)
    (keeps_rebuild fun _ _ h => h) (keeps_rebuild fun _ _ h => h) (schemaSql_keeps ?_) hcolumn
  · exact fun s hs hmissing => keeps_backfillDstScope (hscopes s hs hmissing)
  · intro s hs
    rwa [hdomains]
  · intro s hs
    rwa [hstats]
  · exact fun _ h => h
  · intro g hg s hs
    fin_cases hg
    · exact hcreate _ hs
    all_goals exact hs

/-- A flow without a scope keeps none once its table has the column. -/
theorem keeps_unscoped : Keeps (fromConnection order) fun s =>
    ∃ flows, s.flows = some flows ∧ flows.columns .dstScope = true ∧ ¬ Scoped flows.rows := by
  apply keeps_flows (J := fun f => ∃ flows, f = some flows ∧ flows.columns .dstScope = true ∧
    ¬ Scoped flows.rows)
  · rintro _ ⟨flows, rfl, hcolumn, hscoped⟩
    exact ⟨flows, rfl, hcolumn, hscoped⟩
  · rintro c s ⟨flows, hflows, hcolumn, hscoped⟩
    unfold addColumn
    rw [hflows]
    exact ⟨_, rfl, by simp [hcolumn], hscoped⟩
  · rintro s ⟨flows, hflows, hcolumn, -⟩ hmissing
    simp [hasColumn, hflows, hcolumn] at hmissing

/-- A file that does not miss the column does not come to miss it. -/
theorem keeps_dstScope : Keeps (fromConnection order) fun s =>
    s.flows.all (FlowsTable.columns · .dstScope) = true := by
  apply keeps_flows (J := fun f => f.all (FlowsTable.columns · .dstScope) = true)
  · intro flows h
    cases flows with
    | none => rfl
    | some flows => exact h
  · intro c s h
    unfold addColumn
    cases hflows : s.flows with
    | none => rfl
    | some flows =>
      have hcolumn : flows.columns .dstScope = true := by simpa [hflows] using h
      simp [hcolumn]
  · intro s _ _ scope t h
    rw [setDstScope_eq]
    cases hflows : t.flows with
    | none => rfl
    | some flows => simpa [hflows] using h

end Kept

/-! ## Files without the columns of an index -/

/-- The index on `app_id` comes before the column. -/
theorem not_ends_of_appId {s : DbFile} (order : ScopeOrder) (hversion : s.userVersion < schemaVersion)
    (happ : s.flows.all (FlowsTable.columns · .appId) = false) :
    Ends (fromConnection order) (fun _ _ => False) s := by
  let I := fun t : DbFile => t.flows = s.flows
  have hupgrade : Ends (upgrade order s.userVersion) (fun _ _ => False) s := by
    have hrules : Keeps (.guarded (0 < s.userVersion ∧ s.userVersion < 7) (execute dropRules)) I :=
      .guarded (.execute fun _ h => h)
    have hobservations : Keeps (.guarded (0 < s.userVersion ∧ s.userVersion < 9)
        (rebuild observationsV9 observationsPart)) I :=
      .guarded (keeps_rebuild fun _ _ h => h)
    have hbuckets : Keeps (.guarded (0 < s.userVersion ∧ s.userVersion < 10) (do
        rebuild trafficBucketsV10 trafficBucketsPart
        rebuild entityBucketsV10 entityBucketsPart)) I :=
      .guarded (.bind (keeps_rebuild fun _ _ h => h) fun _ => keeps_rebuild fun _ _ h => h)
    have hschema : ∀ t, I t → Ends (schemaSql.forM attempt) (fun _ _ => False) t := by
      intro t ht
      have hindex : ∀ {Q : Unit → DbFile → Prop} {u : DbFile}, Q () u →
          Ends (attempt (.ok ∘ createIndex)) Q u := by
        intro Q u hQ
        refine .attempt fun u' hu => ?_
        obtain rfl := Except.ok.inj hu
        exact hQ
      refine .bind (.attempt fun u hu => ?_)
      obtain rfl := Except.ok.inj hu
      refine .bind (hindex (.bind (hindex (.bind (hindex (.bind (.attempt fun u hu => ?_)))))))
      have hmissing : t.createFlows.hasColumn .appId = false := by
        unfold hasColumn createFlows
        rw [ht]
        cases hflows : s.flows with
        | none => simp [hflows] at happ
        | some flows => simpa [hflows] using happ
      unfold createAppIndex at hu
      rw [hmissing] at hu
      simp at hu
    refine .bind ((hrules.ends rfl).mono fun _ s₁ h₁ => ?_)
    refine .bind ((hobservations.ends h₁).mono fun _ s₂ h₂ => ?_)
    refine .bind ((hbuckets.ends h₂).mono fun _ s₃ h₃ => ?_)
    exact .bind ((hschema s₃ h₃).mono fun _ _ hno => hno.elim)
  refine .bind (.query (.bind (.guarded (fun _ => ?_) fun hc => absurd hversion hc)))
  exact hupgrade.mono fun _ _ hno => hno.elim

/-! ## Runs of interrupted upgrades -/

/-- A file as a daemon of an earlier version leaves it. -/
structure Left (s : DbFile) : Prop where
  version : s.userVersion < schemaVersion
  unnamed : s.NoneRenamed
  observations : s.userVersion < 9 → ∀ l, s.observations.table = some l → ∃ t, l = .narrow t
  trafficBuckets : s.userVersion < 10 → ∀ l, s.trafficBuckets.table = some l → ∃ t, l = .narrow t
  entityBuckets : s.userVersion < 10 → ∀ l, s.entityBuckets.table = some l → ∃ t, l = .narrow t

variable {s t : DbFile}

theorem Left.ready (h : s.Left) (happ : s.flows.all (FlowsTable.columns · .appId) = true) :
    s.Ready := by
  refine ⟨h.version, ⟨h.unnamed.observations, ?_⟩, ⟨h.unnamed.trafficBuckets, ?_⟩,
    ⟨h.unnamed.entityBuckets, ?_⟩, happ⟩
  · intro hstale l hl
    obtain ⟨t, rfl⟩ := h.observations (stale_iff.mp hstale).2 l hl
    exact Layout.apart_narrow _ t
  · intro hstale l hl
    obtain ⟨t, rfl⟩ := h.trafficBuckets (stale_iff.mp hstale).2 l hl
    exact Layout.apart_narrow _ t
  · intro hstale l hl
    obtain ⟨t, rfl⟩ := h.entityBuckets (stale_iff.mp hstale).2 l hl
    exact Layout.apart_narrow _ t

/-- Opens of a file, each cut off by a statement that fails. -/
def interruptions (s : DbFile) : System DbFile where
  init t := t = s
  step t t' := ∃ order faults e rest, fromConnection order ⟨t, faults⟩ = (.error e, ⟨t', rest⟩)

/-- An open of `t` leads where one of `s` does that nothing interrupts. -/
def Resumes (s t : DbFile) : Prop :=
  ∀ order order', ∃ done rest rest', fromConnection order ⟨s, []⟩ = (.ok (), ⟨done, rest⟩) ∧
    fromConnection order' ⟨t, []⟩ = (.ok (), ⟨done, rest'⟩)

theorem resumes_of_absorbed (h : s.Ready) (ht : s.Absorbed t ∨ t = s.upgraded) : Resumes s t := by
  intro order order'
  refine ⟨s.upgraded, [], [], (passes_fromConnection order h).result, ?_⟩
  rcases ht with ht | rfl
  · rw [← ht.upgraded]
    exact (passes_fromConnection order' ht.ready).result
  · exact (passes_fromConnection_of_le order' (le_refl schemaVersion)).result

theorem noneRenamed_upgraded (h : s.Ready) : s.upgraded.NoneRenamed := by
  have hslot : ∀ {κ α κ' α' : Type} [DecidableEq κ'] {w : Widening κ α κ' α'} {stale : Bool}
      {c : Slot κ α κ' α'}, c.Ready w stale → (c.upgraded w stale).renamed = none := by
    intro κ α κ' α' _ w stale c hc
    exact (Slot.ready_createIfMissing (Slot.ready_rebuilt hc)).unnamed
  exact ⟨hslot h.observations, hslot h.trafficBuckets, hslot h.entityBuckets⟩

theorem flows_tablesAfter : s.tablesAfter.flows = s.scopedTables.flows := by
  unfold tablesAfter
  split <;> split <;> simp [Tables.backfillFlowStats, Tables.backfillFlowDomains_eq]

/-- An upgrade that adds the column leaves no flow without a scope. -/
theorem scoped_upgraded (hmissing : s.flows.all (FlowsTable.columns · .dstScope) = false) :
    Scoped s.tablesAfter.flows := by
  rw [flows_tablesAfter]
  unfold scopedTables
  rw [hmissing]
  intro r hr
  obtain ⟨r', -, rfl⟩ := List.mem_map.mp hr
  change r'.2.scoped.dstScope ≠ none
  unfold FlowRow.scoped
  split
  · simp
  · assumption

section Runs

variable {I : DbFile → Prop}

theorem reachable_keeps (h : ∀ order, Keeps (fromConnection order) I) (hs : I s)
    (hreach : (interruptions s).Reachable t) : I t := by
  apply hreach.invariant
  · rintro _ rfl
    exact hs
  · rintro t t' ht ⟨order, faults, e, rest, hrun⟩
    exact (h order).of_eq hrun ht

/-- Every interrupted open leaves the file on its way, or with one of the defects. -/
theorem reachable_between (h : s.Ready) (hreach : (interruptions s).Reachable t) : Between s t := by
  induction hreach with
  | init ht =>
    obtain rfl := ht
    exact (Absorbed.refl h).between
  | @step t u hreach hstep ih =>
    obtain ⟨order, faults, e, rest, hrun⟩ := hstep
    intro hnone hpending
    have hnone' : t.NoneRenamed := by
      by_contra hn
      exact keeps_renamed.of_eq hrun hn hnone
    have hpending' : ¬ Pending s t :=
      fun hp => hpending ⟨hp.1, keeps_unscoped.of_eq hrun hp.2⟩
    rcases ih hnone' hpending' with ht | rfl
    · have hbetween := (passes_fromConnection order ht.ready).of_error hrun
      have hwaits : ¬ Pending t u := by
        rintro ⟨hmissing, hwaiting⟩
        apply hpending
        refine ⟨?_, hwaiting⟩
        by_contra hcolumn
        have hkept := reachable_keeps (fun _ => keeps_dstScope)
          (Bool.eq_true_of_not_eq_false hcolumn) hreach
        simp [hkept] at hmissing
      rcases hbetween hnone hwaits with hu | rfl
      · exact Or.inl (ht.trans hu)
      · exact Or.inr ht.upgraded
    · exact Or.inr ((passes_fromConnection_of_le order (le_refl schemaVersion)).of_error hrun)

end Runs

/-! ## What is lost -/

def ScopeOrder.all : ScopeOrder where
  scopes := AddressScope.all
  complete scope := by cases scope <;> decide

theorem not_resumes_of_appId (hversion : s.userVersion < schemaVersion)
    (happ : s.flows.all (FlowsTable.columns · .appId) = false) : ¬ Resumes s t := by
  intro hresumes
  obtain ⟨done, rest, -, hdone, -⟩ := hresumes ScopeOrder.all ScopeOrder.all
  exact not_ends_of_appId _ hversion happ [] () _ hdone

theorem Resumes.result (hresumes : Resumes s t) (h : s.Ready) :
    ∃ order rest, fromConnection order ⟨t, []⟩ = (.ok (), ⟨s.upgraded, rest⟩) := by
  obtain ⟨done, rest, rest', hdone, hdone'⟩ := hresumes ScopeOrder.all ScopeOrder.all
  rw [(passes_fromConnection _ h).result] at hdone
  obtain ⟨rfl, -⟩ : s.upgraded = done ∧ [] = rest := by simpa using hdone
  exact ⟨_, rest', hdone'⟩

theorem not_resumes_of_renamed (h : s.Ready) (ht : ¬ t.NoneRenamed) : ¬ Resumes s t := by
  intro hresumes
  obtain ⟨order, rest, hdone⟩ := hresumes.result h
  exact keeps_renamed.of_eq hdone ht (noneRenamed_upgraded h)

theorem not_resumes_of_pending (h : s.Ready) (ht : Pending s t) : ¬ Resumes s t := by
  intro hresumes
  obtain ⟨order, rest, hdone⟩ := hresumes.result h
  obtain ⟨flows, hflows, -, hscoped⟩ := keeps_unscoped.of_eq hdone ht.2
  obtain rfl := Option.some.inj hflows
  exact hscoped (scoped_upgraded ht.1)

/-- A file that interrupted opens leave is taken up again just if it has neither defect, and
its flows had the column of the index from the start. -/
theorem resumes_iff (h : s.Left) (hreach : (interruptions s).Reachable t) :
    Resumes s t ↔
      s.flows.all (FlowsTable.columns · .appId) = true ∧ t.NoneRenamed ∧ ¬ Pending s t := by
  constructor
  · intro hresumes
    have happ : s.flows.all (FlowsTable.columns · .appId) = true := by
      by_contra happ
      exact not_resumes_of_appId h.version (Bool.eq_false_iff.mpr happ) hresumes
    have hready := h.ready happ
    refine ⟨happ, ?_, ?_⟩
    · by_contra hrenamed
      exact not_resumes_of_renamed hready hrenamed hresumes
    · intro hpending
      exact not_resumes_of_pending hready hpending hresumes
  · rintro ⟨happ, hnone, hpending⟩
    have hready := h.ready happ
    exact resumes_of_absorbed hready (reachable_between hready hreach hnone hpending)

/-- A minute of traffic in a file of version 9. -/
def fileV9 : DbFile where
  userVersion := 9
  trafficBuckets := { table := some (.narrow ⟨[(⟨.minute, 0⟩, ⟨1, 10, 2, 20⟩)], by decide⟩) }

/-- The file once its table has its other name, and nothing else. -/
def cutV9 : DbFile :=
  { fileV9 with trafficBuckets := ⟨none, fileV9.trafficBuckets.table⟩ }

theorem left_fileV9 : fileV9.Left where
  version := by decide
  unnamed := ⟨rfl, rfl, rfl⟩
  observations h := absurd h (by decide)
  trafficBuckets _ l hl := ⟨_, (Option.some.inj hl).symm⟩
  entityBuckets _ l hl := by simp [fileV9] at hl

theorem reachable_cutV9 : (interruptions fileV9).Reachable cutV9 :=
  .step (.init rfl) ⟨ScopeOrder.all, [none, none, none, some "disk I/O error"], _, [], rfl⟩

theorem resumes_iff_v9 : Resumes fileV9 cutV9 ↔
    fileV9.flows.all (FlowsTable.columns · .appId) = true ∧ cutV9.NoneRenamed ∧
      ¬ Pending fileV9 cutV9 :=
  resumes_iff left_fileV9 reachable_cutV9

/-- The minute stays behind in the renamed table. -/
theorem bucket_left_behind : ¬ ∀ s : DbFile, s.Left → ∀ t, (interruptions s).Reachable t →
    Resumes s t := by
  intro hall
  refine not_resumes_of_renamed (left_fileV9.ready rfl) ?_ (hall _ left_fileV9 _ reachable_cutV9)
  rintro ⟨-, hrenamed, -⟩
  simp [cutV9, fileV9] at hrenamed

end DbFile

end ZimaScope
