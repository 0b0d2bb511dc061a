import ZimaScope.Db.Upgrade
import ZimaScope.Lib.Accumulate

/-! # Interrupted upgrades

What an upgrade leads to, from the file it starts with, and where it may be cut
off without the next one leading elsewhere: anywhere but between the rename and
the drop of a table, and while flows wait for a scope their table has a column
for.
-/

namespace ZimaScope

open Storage

/-! ## Widened tables -/

section Slots

variable {κ α κ' α' : Type} (w : Widening κ α κ' α')

/-- The rows in the new layout. -/
def Layout.widened (l : Layout κ α κ' α') : List (κ' × α') := (l.columns w).map w.widen

/-- The rows keep different keys. -/
def Layout.Apart (l : Layout κ α κ' α') : Prop := ((l.widened w).map Prod.fst).Nodup

theorem Layout.apart_narrow (t : Table κ α) : (Layout.narrow t : Layout κ α κ' α').Apart w := by
  unfold Layout.Apart Layout.widened
  rw [List.map_map, show Prod.fst ∘ w.widen = w.key ∘ Prod.fst from rfl, ← List.map_map]
  exact t.nodup.map w.oldKey_key.injective

theorem Layout.apart_empty : (Layout.wide ∅ : Layout κ α κ' α').Apart w := List.nodup_nil

variable [DecidableEq κ']

/-- The table once its rows are copied. -/
def Layout.copied (l : Layout κ α κ' α') : Table κ' α' :=
  if h : ((l.widened w).map Prod.fst).Nodup then ⟨l.widened w, h⟩ else ∅

variable {w} {l : Layout κ α κ' α'}

theorem Layout.rows_copied (h : l.Apart w) : (l.copied w).rows = l.widened w :=
  congrArg Table.rows (dif_pos h)

theorem Layout.widened_copied (h : l.Apart w) :
    (Layout.wide (l.copied w) : Layout κ α κ' α').widened w = l.widened w := by
  have hcolumns : (Layout.wide (l.copied w) : Layout κ α κ' α').columns w = l.columns w := by
    change (l.copied w).rows.map _ = _
    rw [Layout.rows_copied h, Layout.widened, List.map_map]
    refine (List.map_congr_left fun r _ => ?_).trans (List.map_id _)
    exact Prod.ext (w.oldKey_key r.1) (w.oldRow_row r.2)
  unfold Layout.widened
  rw [hcolumns]

theorem Layout.apart_copied (h : l.Apart w) :
    (Layout.wide (l.copied w) : Layout κ α κ' α').Apart w := by
  unfold Layout.Apart
  rwa [Layout.widened_copied h]

theorem Layout.copied_copied (h : l.Apart w) :
    (Layout.wide (l.copied w) : Layout κ α κ' α').copied w = l.copied w := by
  ext1
  rw [Layout.rows_copied (Layout.apart_copied h), Layout.rows_copied h, Layout.widened_copied h]

theorem Layout.copied_empty : (Layout.wide ∅ : Layout κ α κ' α').copied w = ∅ := by
  ext1
  exact Layout.rows_copied (Layout.apart_empty w)

namespace Slot

variable (w) (stale : Bool) (c : Slot κ α κ' α')

/-- The table after it was copied, if it is there and stale. -/
def rebuilt : Slot κ α κ' α' :=
  match stale, c.table with
  | true, some l => ⟨some (.wide (l.copied w)), none⟩
  | _, _ => c

/-- What an upgrade makes of the table. -/
def upgraded : Slot κ α κ' α' := (c.rebuilt w stale).createIfMissing

/-- An upgrade gets through with the table. -/
structure Ready : Prop where
  unnamed : c.renamed = none
  apart : stale = true → ∀ l, c.table = some l → l.Apart w

variable {w stale c}

theorem copy_renamed {l : Layout κ α κ' α'} (h : l.Apart w) :
    copy w ⟨some (.wide ∅), some l⟩ = .ok ⟨some (.wide (l.copied w)), some l⟩ := by
  have hcopied : l.copied w = ⟨l.widened w, h⟩ := dif_pos h
  rw [hcopied]
  exact dif_pos h

omit [DecidableEq κ'] in
theorem ready_createIfMissing (h : c.Ready w stale) : c.createIfMissing.Ready w stale := by
  obtain ⟨table, renamed⟩ := c
  refine ⟨h.unnamed, fun hstale l hl => ?_⟩
  cases table with
  | none =>
    obtain rfl : Layout.wide ∅ = l := Option.some.inj hl
    exact Layout.apart_empty w
  | some l' => exact h.apart hstale l hl

theorem upgraded_createIfMissing (h : c.Ready w stale) :
    c.createIfMissing.upgraded w stale = c.upgraded w stale := by
  obtain ⟨table, renamed⟩ := c
  obtain rfl : renamed = none := h.unnamed
  cases table with
  | some l => rfl
  | none =>
    cases stale with
    | false => rfl
    | true =>
      change (⟨some (.wide (Layout.copied w (.wide ∅))), none⟩ : Slot κ α κ' α') = _
      rw [Layout.copied_empty]
      rfl

theorem ready_rebuilt (h : c.Ready w stale) : (c.rebuilt w stale).Ready w stale := by
  unfold rebuilt
  split
  · next l hl =>
    refine ⟨rfl, fun _ l' hl' => ?_⟩
    obtain rfl : Layout.wide (l.copied w) = l' := Option.some.inj hl'
    exact Layout.apart_copied (h.apart rfl l hl)
  · exact h

theorem upgraded_rebuilt (h : c.Ready w stale) :
    (c.rebuilt w stale).upgraded w stale = c.upgraded w stale := by
  obtain ⟨table, renamed⟩ := c
  cases stale with
  | false => rfl
  | true =>
    cases table with
    | none => rfl
    | some l =>
      change (⟨some (.wide (Layout.copied w (.wide (l.copied w)))), none⟩ : Slot κ α κ' α') = _
      rw [Layout.copied_copied (h.apart rfl l rfl)]
      rfl

end Slot

end Slots

/-! ## Scopes -/

/-- A flow with the scope of its destination. -/
def FlowRow.scoped (row : FlowRow) : FlowRow :=
  if row.dstScope = none then
    { row with dstScope := some (AddressScope.classify row.key.destination.address) }
  else row

/-- A flow, if its scope is one of these. -/
def FlowRow.scopedIn (scopes : List AddressScope) (row : FlowRow) : FlowRow :=
  if AddressScope.classify row.key.destination.address ∈ scopes then row.scoped else row

theorem FlowRow.scoped_scoped (row : FlowRow) : row.scoped.scoped = row.scoped := by
  unfold FlowRow.scoped
  by_cases h : row.dstScope = none <;> simp [h]

theorem FlowRow.key_scopedIn (scopes : List AddressScope) (row : FlowRow) :
    (row.scopedIn scopes).key = row.key := by
  unfold FlowRow.scopedIn FlowRow.scoped
  split <;> [split; skip] <;> rfl

theorem FlowRow.scopedIn_scopedIn {scope : AddressScope} {scopes : List AddressScope}
    (row : FlowRow) : (row.scopedIn [scope]).scopedIn scopes = row.scopedIn (scope :: scopes) := by
  have hkey := row.key_scopedIn [scope]
  unfold FlowRow.scopedIn at hkey ⊢
  rw [hkey]
  by_cases hscope : AddressScope.classify row.key.destination.address = scope
  · simp [hscope, FlowRow.scoped_scoped]
  · simp [hscope]

theorem FlowRow.scopedIn_eq_scoped {scopes : List AddressScope} {row : FlowRow}
    (h : row.dstScope = none → AddressScope.classify row.key.destination.address ∈ scopes) :
    row.scopedIn scopes = row.scoped := by
  unfold FlowRow.scopedIn
  split
  · rfl
  · next hmem => exact (if_neg (mt h hmem)).symm

/-- No flow of the table waits for its scope. -/
def Scoped (t : Table UInt64 FlowRow) : Prop := ∀ r ∈ t.rows, r.2.dstScope ≠ none

namespace Tables

variable {t : Tables}

theorem onUpdate_self {id : UInt64} {old new : FlowRow} (hstate : new.state = old.state)
    (hdomains : new.domainsJson = old.domainsJson) : t.onUpdate id old new = t := by
  unfold onUpdate trgFlowDomainsUpdate trgFlowStatsUpdate
  rw [if_pos hdomains, hstate, hdomains, add_sub_cancel_right, add_sub_cancel_right]

/-- An update that no trigger answers. -/
theorem updateFlows_eq {set : FlowRow → FlowRow} {cond : UInt64 → FlowRow → Bool}
    (hstate : ∀ row, (set row).state = row.state)
    (hdomains : ∀ row, (set row).domainsJson = row.domainsJson) :
    t.updateFlows set cond =
      { t with flows := t.flows.mapRows fun id row => if cond id row then set row else row } := by
  unfold updateFlows
  generalize ({ t with flows := _ } : Tables) = t'
  induction (t.flows.filter cond).rows generalizing t' with
  | nil => rfl
  | cons r rows ih =>
    rw [List.foldl_cons, onUpdate_self (hstate _) (hdomains _)]
    exact ih t'

/-! ## Mirrored twice -/

/-- The rows of `flow_domains` that the flows ask for. -/
def mirrorWrites (t : Tables) : List ((UInt64 × String) × DomainEvidence × AssociationConfidence) :=
  t.flows.rows.flatMap fun r => r.2.domainsJson.map fun d => ((r.1, d.domain), d.evidence, d.confidence)

theorem mirrorDomains_eq {id : UInt64} {domains : List DomainRefDto} {d : FlowDomains} :
    mirrorDomains id domains d = Table.addAll Table.replace
      (domains.map fun d => ((id, d.domain), d.evidence, d.confidence)) d := by
  unfold mirrorDomains Table.addAll
  rw [List.foldl_map]
  rfl

theorem backfillFlowDomains_eq : t.backfillFlowDomains =
    { t with flowDomains := Table.addAll Table.replace t.mirrorWrites t.flowDomains } := by
  unfold backfillFlowDomains mirrorWrites
  induction t.flows.rows generalizing t with
  | nil => rfl
  | cons r rows ih =>
    rw [List.foldl_cons, ih, List.flatMap_cons, Table.addAll_append, mirrorDomains_eq]

theorem backfillFlowDomains_twice : t.backfillFlowDomains.backfillFlowDomains = t.backfillFlowDomains := by
  rw [backfillFlowDomains_eq, backfillFlowDomains_eq]
  exact congrArg (fun d => { t with flowDomains := d }) Table.addAll_replace_twice

end Tables

namespace DbFile

variable {s : DbFile}

/-- What an update of the scopes does to the file. -/
theorem setDstScope_eq (scope : AddressScope) : setDstScope scope s =
    { s with flows := s.flows.map fun flows =>
        { flows with rows := flows.rows.mapRows fun _ row => row.scopedIn [scope] } } := by
  have hupdate : s.tables.updateFlows (fun row => { row with dstScope := some scope })
      (missesScope scope) =
        { s.tables with flows := s.tables.flows.mapRows fun _ row => row.scopedIn [scope] } := by
    refine (Tables.updateFlows_eq ?_ ?_).trans ?_
    · exact fun row => rfl
    · exact fun row => rfl
    congr 1
    refine Table.mapRows_congr _ fun id row => ?_
    unfold missesScope FlowRow.scopedIn FlowRow.scoped
    by_cases hscope : AddressScope.classify row.key.destination.address = scope
    · by_cases hnone : row.dstScope = none <;> simp [hscope, hnone]
    · simp [hscope]
  unfold setDstScope onTables
  simp only [hupdate]
  congr 1
  · cases hflows : s.flows <;> simp [tables, hflows]
  · cases hdomains : s.flowDomains <;> simp [tables, hdomains]
  · rcases hstats : s.flowStats with _ | _ | row <;> simp [tables, hstats]

/-- The flows of a file, rewritten. -/
def mapFlows (f : FlowRow → FlowRow) (s : DbFile) : DbFile :=
  { s with flows := s.flows.map fun flows =>
      { flows with rows := flows.rows.mapRows fun _ row => f row } }

theorem mapFlows_mapFlows {f g : FlowRow → FlowRow} :
    (s.mapFlows f).mapFlows g = s.mapFlows (g ∘ f) := by
  unfold mapFlows
  cases s.flows with
  | none => rfl
  | some flows => simp [Table.mapRows_mapRows]

theorem mapFlows_congr {f g : FlowRow → FlowRow}
    (h : ∀ flows, s.flows = some flows → ∀ r ∈ flows.rows.rows, f r.2 = g r.2) :
    s.mapFlows f = s.mapFlows g := by
  unfold mapFlows
  cases hflows : s.flows with
  | none => rfl
  | some flows =>
    have hrows : (flows.rows.mapRows fun _ row => f row) = flows.rows.mapRows fun _ row => g row := by
      ext1
      exact List.map_congr_left fun r hr => congrArg (Prod.mk r.1) (h flows hflows r hr)
    simp only [Option.map_some, hrows]

theorem mapFlows_self {f : FlowRow → FlowRow} (h : ∀ row, f row = row) : s.mapFlows f = s := by
  have hrows : ∀ flows : FlowsTable,
      { flows with rows := flows.rows.mapRows fun _ row => f row } = flows := by
    rintro ⟨⟨rows, hn⟩, columns⟩
    simp [Table.mapRows, h]
  unfold mapFlows
  rw [show (fun flows : FlowsTable => { flows with rows := flows.rows.mapRows fun _ row => f row }) =
    id from funext hrows, Option.map_id]
  rfl

theorem foldl_setDstScope {scopes : List AddressScope} :
    scopes.foldl (fun s scope => setDstScope scope s) s = s.mapFlows (FlowRow.scopedIn scopes) := by
  induction scopes generalizing s with
  | nil => exact (mapFlows_self fun row => by simp [FlowRow.scopedIn]).symm
  | cons scope scopes ih =>
    rw [List.foldl_cons, ih, setDstScope_eq]
    change (s.mapFlows (FlowRow.scopedIn [scope])).mapFlows _ = _
    rw [mapFlows_mapFlows]
    refine congrArg s.mapFlows (funext fun row => ?_)
    exact FlowRow.scopedIn_scopedIn row

/-! ## Where an upgrade leads -/

/-- The version of the file is one the upgrade from `first` to `last` is for. -/
def stale (last : ℤ) (s : DbFile) : Bool := 0 < s.userVersion && s.userVersion < last

def rulesAfter (s : DbFile) : RulesLayout :=
  if s.stale 7 then .selectors {} else s.trafficRules.getD (.selectors {})

/-- `flows` with every scope, and what its triggers keep. -/
def scopedTables (s : DbFile) : Tables :=
  if s.flows.all fun flows => flows.columns .dstScope then s.tables
  else { s.tables with flows := s.tables.flows.mapRows fun _ row => row.scoped }

def tablesAfter (s : DbFile) : Tables :=
  let t := if s.stale 12 then s.scopedTables.backfillFlowDomains else s.scopedTables
  if s.stale 13 then t.backfillFlowStats else t

/-- The file after an upgrade that gets through. -/
def upgraded (s : DbFile) : DbFile where
  userVersion := schemaVersion
  trafficRules := some s.rulesAfter
  observations := s.observations.upgraded observationsV9 (s.stale 9)
  trafficBuckets := s.trafficBuckets.upgraded trafficBucketsV10 (s.stale 10)
  entityBuckets := s.entityBuckets.upgraded entityBucketsV10 (s.stale 10)
  flows := some ⟨s.tablesAfter.flows, fun _ => true⟩
  flowDomains := some s.tablesAfter.flowDomains
  flowStats := some (some s.tablesAfter.flowStats)
  others table := some ((s.others table).getD [])

/-- An upgrade gets through with the file. -/
structure Ready (s : DbFile) : Prop where
  version : s.userVersion < schemaVersion
  observations : s.observations.Ready observationsV9 (s.stale 9)
  trafficBuckets : s.trafficBuckets.Ready trafficBucketsV10 (s.stale 10)
  entityBuckets : s.entityBuckets.Ready entityBucketsV10 (s.stale 10)
  appId : s.flows.all (FlowsTable.columns · .appId) = true

/-- An upgrade that goes on from `t` leads where one from `s` leads. -/
structure Absorbed (s t : DbFile) : Prop where
  ready : t.Ready
  upgraded : t.upgraded = s.upgraded

/-- No table stands under the name it has while it is copied. -/
@[mk_iff noneRenamed_iff]
structure NoneRenamed (s : DbFile) : Prop where
  observations : s.observations.renamed = none
  trafficBuckets : s.trafficBuckets.renamed = none
  entityBuckets : s.entityBuckets.renamed = none

/-- The column for the scopes was added on the way from `s`, and a flow waits for its own. -/
def Pending (s t : DbFile) : Prop :=
  s.flows.all (FlowsTable.columns · .dstScope) = false ∧
    ∃ flows, t.flows = some flows ∧ flows.columns .dstScope = true ∧ ¬ Scoped flows.rows

/-- A file on the way from `s` to where its upgrade leads. -/
def Between (s t : DbFile) : Prop :=
  t.NoneRenamed → ¬ Pending s t → s.Absorbed t ∨ t = s.upgraded

/-! ## On the way -/

theorem stale_iff {last : ℤ} : s.stale last = true ↔ 0 < s.userVersion ∧ s.userVersion < last := by
  simp [stale]

theorem Absorbed.refl (h : s.Ready) : s.Absorbed s := ⟨h, rfl⟩

theorem Absorbed.trans {t u : DbFile} (h : s.Absorbed t) (h' : t.Absorbed u) : s.Absorbed u :=
  ⟨h'.ready, h'.upgraded.trans h.upgraded⟩

theorem Absorbed.between {t : DbFile} (h : s.Absorbed t) : Between s t := fun _ _ => Or.inl h

section Steps

variable (h : s.Ready)
include h

theorem absorbed_dropRules (hstale : s.stale 7 = true) : s.Absorbed s.dropRules := by
  refine ⟨⟨h.version, h.observations, h.trafficBuckets, h.entityBuckets, h.appId⟩, ?_⟩
  have hrules : s.dropRules.rulesAfter = s.rulesAfter := by
    unfold rulesAfter
    rw [if_pos hstale]
    exact if_pos hstale
  unfold upgraded
  rw [hrules]
  rfl

theorem absorbed_observations
    {c : Slot ObservationKeyV8 ObservationRow ObservationKey ObservationRow}
    (hc : c.Ready observationsV9 (s.stale 9)) (hupgraded : c.upgraded observationsV9 (s.stale 9) =
      s.observations.upgraded observationsV9 (s.stale 9)) :
    s.Absorbed { s with observations := c } := by
  refine ⟨⟨h.version, hc, h.trafficBuckets, h.entityBuckets, h.appId⟩, ?_⟩
  unfold upgraded
  rw [← hupgraded]
  rfl

theorem absorbed_trafficBuckets
    {c : Slot TimeBucketKeyV9 TimeBucketV9 TimeBucketKey TimeBucket}
    (hc : c.Ready trafficBucketsV10 (s.stale 10)) (hupgraded : c.upgraded trafficBucketsV10 (s.stale 10) =
      s.trafficBuckets.upgraded trafficBucketsV10 (s.stale 10)) :
    s.Absorbed { s with trafficBuckets := c } := by
  refine ⟨⟨h.version, h.observations, hc, h.entityBuckets, h.appId⟩, ?_⟩
  unfold upgraded
  rw [← hupgraded]
  rfl

theorem absorbed_entityBuckets
    {c : Slot EntityBucketKeyV9 TimeBucketV9 EntityBucketKey TimeBucket}
    (hc : c.Ready entityBucketsV10 (s.stale 10)) (hupgraded : c.upgraded entityBucketsV10 (s.stale 10) =
      s.entityBuckets.upgraded entityBucketsV10 (s.stale 10)) :
    s.Absorbed { s with entityBuckets := c } := by
  refine ⟨⟨h.version, h.observations, h.trafficBuckets, hc, h.appId⟩, ?_⟩
  unfold upgraded
  rw [← hupgraded]
  rfl

/-- Another file with the same tables, as far as flows go. -/
theorem absorbed_tables {flows : Option FlowsTable} {flowDomains : Option FlowDomains}
    {flowStats : Option (Option FlowStats)} (happ : flows.all (FlowsTable.columns · .appId) = true)
    (htables : ({ s with flows, flowDomains, flowStats } : DbFile).tablesAfter = s.tablesAfter) :
    s.Absorbed { s with flows, flowDomains, flowStats } := by
  refine ⟨⟨h.version, h.observations, h.trafficBuckets, h.entityBuckets, happ⟩, ?_⟩
  unfold upgraded
  rw [htables]
  rfl

theorem absorbed_createFlows : s.Absorbed s.createFlows := by
  apply absorbed_tables h
  · cases hflows : s.flows with
    | none => rfl
    | some flows => simpa [hflows] using h.appId
  · obtain ⟨_, _, _, _, _, flows, _, _, _⟩ := s
    cases flows <;> rfl

theorem absorbed_createFlowDomains : s.Absorbed s.createFlowDomains :=
  absorbed_tables h h.appId rfl

theorem absorbed_createFlowStats : s.Absorbed s.createFlowStats := by
  apply absorbed_tables h h.appId
  obtain ⟨_, _, _, _, _, _, _, flowStats, _⟩ := s
  cases flowStats <;> rfl

theorem absorbed_insertFlowStats : s.Absorbed s.insertFlowStats := by
  apply absorbed_tables h h.appId
  obtain ⟨_, _, _, _, _, _, _, flowStats, _⟩ := s
  rcases flowStats with _ | _ | _ <;> rfl

theorem absorbed_createOther (table : OtherTable) : s.Absorbed (s.createOther table) := by
  refine ⟨⟨h.version, h.observations, h.trafficBuckets, h.entityBuckets, h.appId⟩, ?_⟩
  have hothers : (fun t => some (((s.createOther table).others t).getD [])) =
      fun t => some ((s.others t).getD []) := by
    ext1 t
    unfold createOther
    by_cases ht : t = table <;> simp [ht]
  unfold upgraded
  rw [hothers]
  rfl

theorem absorbed_createRules : s.Absorbed s.createRules :=
  ⟨⟨h.version, h.observations, h.trafficBuckets, h.entityBuckets, h.appId⟩, rfl⟩

omit h in
theorem tablesAfter_congr {t : DbFile} (hversion : t.userVersion = s.userVersion)
    (htables : t.scopedTables = s.scopedTables) : t.tablesAfter = s.tablesAfter := by
  unfold tablesAfter stale
  rw [hversion, htables]

theorem absorbed_addColumn {c : FlowColumn} (hc : c ≠ .dstScope) : s.Absorbed (addColumn c s) := by
  apply absorbed_tables h
  · cases hflows : s.flows with
    | none => rfl
    | some flows =>
      have happ : flows.columns .appId = true := by simpa [hflows] using h.appId
      simp [happ]
  · refine tablesAfter_congr rfl ?_
    obtain ⟨_, _, _, _, _, flows, _, _, _⟩ := s
    cases flows with
    | none => rfl
    | some flows => simp [scopedTables, tables, hc.symm]

omit h in
theorem scopedTables_of_column (hscoped : s.flows.all (FlowsTable.columns · .dstScope) = true) :
    s.scopedTables = s.tables := if_pos hscoped

omit h in
theorem tables_backfillFlowDomains {flows : FlowsTable} (hflows : s.flows = some flows)
    {d : FlowDomains} (hdomains : s.flowDomains = some d) :
    (onTables Tables.backfillFlowDomains s).tables = s.tables.backfillFlowDomains := by
  rw [Tables.backfillFlowDomains_eq]
  unfold onTables
  rw [Tables.backfillFlowDomains_eq]
  rcases hstats : s.flowStats with _ | _ | stats <;> simp [tables, hflows, hdomains, hstats]

theorem absorbed_backfillFlowDomains (hstale : s.stale 12 = true) {flows : FlowsTable}
    (hflows : s.flows = some flows) (hcolumn : flows.columns .dstScope = true) {d : FlowDomains}
    (hdomains : s.flowDomains = some d) :
    s.Absorbed (onTables Tables.backfillFlowDomains s) := by
  apply absorbed_tables h
  · have happ := h.appId
    rw [hflows] at happ ⊢
    exact happ
  · change (onTables Tables.backfillFlowDomains s).tablesAfter = _
    have htables := tables_backfillFlowDomains hflows hdomains
    have hscoped : s.scopedTables = s.tables := scopedTables_of_column (by rw [hflows]; exact hcolumn)
    have hscoped' : (onTables Tables.backfillFlowDomains s).scopedTables = _ :=
      scopedTables_of_column (by unfold onTables; rw [hflows]; exact hcolumn)
    have hstale' : (onTables Tables.backfillFlowDomains s).stale 12 = true := hstale
    unfold tablesAfter
    rw [hscoped, hscoped', htables, if_pos hstale, if_pos hstale', Tables.backfillFlowDomains_twice]
    rfl

omit h in
theorem tables_backfillFlowStats {flows : FlowsTable} (hflows : s.flows = some flows)
    {stats : FlowStats} (hstats : s.flowStats = some (some stats)) :
    (onTables Tables.backfillFlowStats s).tables = s.tables.backfillFlowStats := by
  unfold onTables Tables.backfillFlowStats
  cases hdomains : s.flowDomains <;> simp [tables, hflows, hdomains, hstats]

theorem absorbed_backfillFlowStats (hstale : s.stale 13 = true) {flows : FlowsTable}
    (hflows : s.flows = some flows) (hcolumn : flows.columns .dstScope = true) {stats : FlowStats}
    (hstats : s.flowStats = some (some stats)) :
    s.Absorbed (onTables Tables.backfillFlowStats s) := by
  apply absorbed_tables h
  · have happ := h.appId
    rw [hflows] at happ ⊢
    exact happ
  · change (onTables Tables.backfillFlowStats s).tablesAfter = _
    have htables := tables_backfillFlowStats hflows hstats
    have hscoped : s.scopedTables = s.tables := scopedTables_of_column (by rw [hflows]; exact hcolumn)
    have hscoped' : (onTables Tables.backfillFlowStats s).scopedTables = _ :=
      scopedTables_of_column (by unfold onTables; rw [hflows]; exact hcolumn)
    have hstale' : (onTables Tables.backfillFlowStats s).stale 13 = true := hstale
    have hsame : (onTables Tables.backfillFlowStats s).stale 12 = s.stale 12 := rfl
    unfold tablesAfter
    rw [hscoped, hscoped', htables, if_pos hstale, if_pos hstale', hsame]
    cases s.stale 12 with
    | false => rfl
    | true =>
      simp only [if_true, Tables.backfillFlowDomains_eq]
      rfl

omit h in
theorem mapRows_scopedIn {flows : FlowsTable} {scopes : List AddressScope}
    (hscoped : Scoped (flows.rows.mapRows fun _ row => row.scopedIn scopes)) :
    (flows.rows.mapRows fun _ row => row.scopedIn scopes) =
      flows.rows.mapRows fun _ row => row.scoped := by
  ext1
  refine List.map_congr_left fun r hr => congrArg (Prod.mk r.1) ?_
  have hrow : (r.2.scopedIn scopes).dstScope ≠ none :=
    hscoped (r.1, r.2.scopedIn scopes) (List.mem_map.mpr ⟨r, hr, rfl⟩)
  change r.2.scopedIn scopes = r.2.scoped
  unfold FlowRow.scopedIn at hrow ⊢
  split
  · rfl
  · next hmem =>
    rw [if_neg hmem] at hrow
    exact (if_neg hrow).symm

/-- With the column there, all that matters is that every flow has its scope. -/
theorem absorbed_scoped {flows : FlowsTable} (hflows : s.flows = some flows)
    (hmissing : flows.columns .dstScope = false) {scopes : List AddressScope}
    (hscoped : Scoped (flows.rows.mapRows fun _ row => row.scopedIn scopes)) :
    s.Absorbed ((addColumn .dstScope s).mapFlows (FlowRow.scopedIn scopes)) := by
  apply absorbed_tables h
  · have happ := h.appId
    rw [hflows] at happ
    have happ : flows.columns .appId = true := happ
    unfold addColumn
    rw [hflows]
    simp [happ]
  · refine tablesAfter_congr rfl ?_
    unfold scopedTables tables addColumn
    simp [hflows, hmissing, mapRows_scopedIn hscoped]

end Steps

/-! ## Phases -/

section Phases

variable {P : DbFile → Prop}

theorem passes_rebuild {κ α κ' α' : Type} [DecidableEq κ'] {w : Widening κ α κ' α'}
    (part : Part (Slot κ α κ' α')) (hget : ∀ s c, part.get (part.set s c) = c)
    (hset : ∀ s c c', part.set (part.set s c) c' = part.set s c')
    (hself : ∀ s, part.set s (part.get s) = s) (hready : (part.get s).Ready w true) (hP : P s)
    (hrenamed : ∀ c, c.renamed ≠ none → P (part.set s c)) :
    Passes (rebuild w part) P s () (part.set s ((part.get s).rebuilt w true)) := by
  have hon : ∀ {f : Slot κ α κ' α' → Except String (Slot κ α κ' α')} {c c' : Slot κ α κ' α'},
      f c = .ok c' → part.on f (part.set s c) = .ok (part.set s c') := by
    intro f c c' hf
    unfold Part.on
    rw [hget, hf]
    exact congrArg Except.ok (hset s c c')
  refine .bind (.query hP) ?_
  cases hc : part.get s with
  | mk table renamed =>
    obtain rfl : renamed = none := by simpa [hc] using hready.unnamed
    have hs : part.set s ⟨table, none⟩ = s := by rw [← hc, hself]
    cases table with
    | none =>
      rw [show (Slot.mk none none : Slot κ α κ' α').rebuilt w true = ⟨none, none⟩ from rfl, hs]
      exact .pure
    | some l =>
      have hapart : l.Apart w := hready.apart rfl l (by rw [hc])
      have hrename : part.on Slot.rename (part.set s ⟨some l, none⟩) =
          .ok (part.set s ⟨none, some l⟩) := hon rfl
      rw [hs] at hrename
      have hcreate : part.on Slot.create (part.set s ⟨none, some l⟩) =
          .ok (part.set s ⟨some (.wide ∅), some l⟩) := hon rfl
      have hcopy : part.on (Slot.copy w) (part.set s ⟨some (.wide ∅), some l⟩) =
          .ok (part.set s ⟨some (.wide (l.copied w)), some l⟩) := hon (Slot.copy_renamed hapart)
      have hdrop : part.on Slot.drop (part.set s ⟨some (.wide (l.copied w)), some l⟩) =
          .ok (part.set s ⟨some (.wide (l.copied w)), none⟩) := hon rfl
      refine .bind (.attempt hP hrename) (.bind (.attempt (hrenamed _ ?_) hcreate)
        (.bind (.attempt (hrenamed _ ?_) hcopy) (.bind (.attempt (hrenamed _ ?_) hdrop) .pure)))
      all_goals exact Option.some_ne_none l

/-- The file once every table is there. -/
def created (s : DbFile) : DbFile :=
  { s with
    trafficRules := some (s.trafficRules.getD (.selectors {}))
    observations := s.observations.createIfMissing
    trafficBuckets := s.trafficBuckets.createIfMissing
    entityBuckets := s.entityBuckets.createIfMissing
    flows := some (s.flows.getD {})
    flowDomains := some (s.flowDomains.getD ∅)
    flowStats := some (some (s.flowStats.join.getD {}))
    others := fun table => some ((s.others table).getD []) }

theorem hasColumn_createFlows (h : s.Ready) : s.createFlows.hasColumn .appId = true := by
  have happ := h.appId
  cases hflows : s.flows <;> simp_all [hasColumn, createFlows]

theorem foldlM_schemaSql (h : s.Ready) : schemaSql.foldlM (fun s f => f s) s = .ok s.created := by
  have happ : createAppIndex s.createFlows = .ok s.createFlows := if_pos (hasColumn_createFlows h)
  have hbind : ∀ (t : DbFile) (f : DbFile → Except String DbFile), (Except.ok t >>= f) = f t :=
    fun _ _ => rfl
  simp only [schemaSql, List.foldlM_cons, List.foldlM_nil, Function.comp, hbind, happ, createIndex]
  refine congrArg Except.ok ?_
  simp only [createFlows, createFlowDomains, createFlowStats, insertFlowStats, createObservations,
    createTrafficBuckets, createEntityBuckets, createOther, createRules, Option.map_some]
  refine congrArg (fun others => { s.created with others }) (funext fun table => ?_)
  cases table <;> rfl

/-- Statements that keep an invariant from the first of them on. -/
theorem passes_forM {g : DbFile → DbFile} {rest : List (DbFile → Except String DbFile)}
    {I : DbFile → Prop} {t : DbFile} (hs : P s) (hI : ∀ t, I t → P t) (hstart : I (g s))
    (hrest : ∀ f ∈ rest, ∀ t, I t → ∃ t', f t = .ok t' ∧ I t')
    (hfold : ((.ok ∘ g) :: rest).foldlM (fun s f => f s) s = .ok t) :
    Passes (((.ok ∘ g) :: rest).forM attempt) P s () t ∧ I t := by
  obtain ⟨t', hpasses, ht, hrest⟩ := Passes.forM hrest hI hstart
  obtain rfl : t = t' := Except.ok.inj (hfold.symm.trans hrest)
  exact ⟨.bind (.attempt hs rfl) hpasses, ht⟩

theorem passes_schemaSql (h : s.Ready) (hP : ∀ t, s.Absorbed t → P t) :
    Passes (schemaSql.forM attempt) P s () s.created ∧ s.Absorbed s.created := by
  -- from here on there is a table for the index on `app_id`
  let I := fun t : DbFile => s.Absorbed t ∧ t.hasColumn .appId = true
  have hkeep : ∀ {g : DbFile → DbFile}, (∀ t : DbFile, t.Ready → t.Absorbed (g t)) →
      (∀ t, (g t).flows = t.flows) →
        ∀ t, I t → ∃ t', (Except.ok ∘ g : DbFile → Except String DbFile) t = .ok t' ∧ I t' := by
    intro g hg hgflows t ht
    refine ⟨g t, rfl, ht.1.trans (hg t ht.1.ready), ?_⟩
    unfold hasColumn
    rw [hgflows]
    exact ht.2
  have hindex := hkeep (fun t ht => Absorbed.refl ht) fun t => rfl
  have hrest : ∀ f ∈ schemaSql.tail, ∀ t, I t → ∃ t', f t = .ok t' ∧ I t' := by
    have hother := fun table => hkeep (fun t ht => absorbed_createOther ht table) fun t => rfl
    have hobservations := hkeep (fun t ht => absorbed_observations ht
      (Slot.ready_createIfMissing ht.observations)
      (Slot.upgraded_createIfMissing ht.observations)) fun t => rfl
    have htraffic := hkeep (fun t ht => absorbed_trafficBuckets ht
      (Slot.ready_createIfMissing ht.trafficBuckets)
      (Slot.upgraded_createIfMissing ht.trafficBuckets)) fun t => rfl
    have hentities := hkeep (fun t ht => absorbed_entityBuckets ht
      (Slot.ready_createIfMissing ht.entityBuckets)
      (Slot.upgraded_createIfMissing ht.entityBuckets)) fun t => rfl
    have happ : ∀ t, I t → ∃ t', createAppIndex t = .ok t' ∧ I t' :=
      fun t ht => ⟨t, if_pos ht.2, ht⟩
    have hdomains := hkeep (fun t ht => absorbed_createFlowDomains ht) fun t => rfl
    have hstats := hkeep (fun t ht => absorbed_createFlowStats ht) fun t => rfl
    have hrow := hkeep (fun t ht => absorbed_insertFlowStats ht) fun t => rfl
    have hrules := hkeep (fun t ht => absorbed_createRules ht) fun t => rfl
    simp only [schemaSql, List.tail_cons, List.forall_mem_cons, List.not_mem_nil, false_imp_iff,
      implies_true, and_true]
    exact ⟨hindex, hindex, hindex, happ, hdomains, hindex, hindex, hindex, hindex, hstats, hrow,
      hindex, hindex, hindex, hother _, hindex, hobservations, hindex, hindex, htraffic, hentities,
      hindex, hother _, hother _, hother _, hrules⟩
  have hstart : I s.createFlows := ⟨absorbed_createFlows h, hasColumn_createFlows h⟩
  obtain ⟨hpasses, hcreated⟩ := passes_forM (hP s (.refl h)) (fun t ht => hP t ht.1) hstart hrest
    (foldlM_schemaSql h)
  exact ⟨hpasses, hcreated.1⟩

theorem addColumn_of_hasColumn {c : FlowColumn} (h : s.hasColumn c = true) : addColumn c s = s := by
  unfold hasColumn at h
  unfold addColumn
  obtain ⟨_, _, _, _, _, flows, _, _, _⟩ := s
  cases flows with
  | none => rfl
  | some flows =>
    have hcolumns : (fun c' => c' = c || flows.columns c') = flows.columns := by
      ext1 c'
      by_cases hc : c' = c
      · rw [hc, show flows.columns c = true from h, Bool.or_true]
      · simp [hc]
    simp only [Option.map_some, hcolumns]

theorem passes_addColumnIfMissing {c : FlowColumn} (hs : P s) :
    Passes (addColumnIfMissing c) P s (!s.hasColumn c) (addColumn c s) := by
  refine .bind (.query hs) ?_
  cases hc : s.hasColumn c with
  | true =>
    rw [addColumn_of_hasColumn hc]
    exact .pure
  | false => exact .bind (.execute hs) .pure

theorem between_scopes (h : s.Ready) {flows : FlowsTable} (hflows : s.flows = some flows)
    (hmissing : flows.columns .dstScope = false) (scopes : List AddressScope) :
    Between s ((addColumn .dstScope s).mapFlows (FlowRow.scopedIn scopes)) := by
  intro _ hpending
  by_cases hscoped : Scoped (flows.rows.mapRows fun _ row => row.scopedIn scopes)
  · exact Or.inl (absorbed_scoped h hflows hmissing hscoped)
  · refine absurd ⟨?_, ⟨_, fun c' => c' = .dstScope || flows.columns c'⟩, ?_, ?_, hscoped⟩ hpending
    · rw [hflows]
      exact hmissing
    · unfold mapFlows addColumn
      rw [hflows]
      rfl
    · simp

/-- The scopes of the flows, if their column is new: one update after the other. -/
theorem passes_backfillDstScope (order : ScopeOrder) (h : s.Ready) {flows : FlowsTable}
    (hflows : s.flows = some flows) (hP : ∀ t, Between s t → P t) :
    Passes (.guarded (!s.hasColumn .dstScope) (backfillDstScope order)) P (addColumn .dstScope s) ()
      (if flows.columns .dstScope then addColumn .dstScope s
        else (addColumn .dstScope s).mapFlows FlowRow.scoped) := by
  have hcolumn : s.hasColumn .dstScope = flows.columns .dstScope := by
    unfold hasColumn
    rw [hflows]
    rfl
  rw [hcolumn]
  cases hmissing : flows.columns .dstScope with
  | true => exact .pure
  | false =>
    have hscopes := fun scopes => hP _ (between_scopes h hflows hmissing scopes)
    have hadded : P (addColumn .dstScope s) := by
      have hnil := hscopes []
      rwa [mapFlows_self fun row => by simp [FlowRow.scopedIn]] at hnil
    have hbackfill : ∀ scopes, Passes (scopes.forM fun scope => execute (setDstScope scope)) P
        (addColumn .dstScope s) () ((addColumn .dstScope s).mapFlows (FlowRow.scopedIn scopes)) := by
      intro scopes
      rw [← foldl_setDstScope]
      refine .forM_execute fun earlier => ?_
      rw [foldl_setDstScope]
      exact hscopes earlier
    have hall : (addColumn .dstScope s).mapFlows (FlowRow.scopedIn (order.scopes.filter fun scope =>
        (addColumn .dstScope s).tables.flows.rows.any fun r => missesScope scope r.1 r.2)) =
          (addColumn .dstScope s).mapFlows FlowRow.scoped := by
      have hadd : (addColumn .dstScope s).flows =
          some { flows with columns := fun c' => c' = .dstScope || flows.columns c' } := by
        unfold addColumn
        rw [hflows]
        rfl
      apply mapFlows_congr
      rintro _ hsome r hr
      obtain rfl := Option.some.inj (hadd.symm.trans hsome)
      apply FlowRow.scopedIn_eq_scoped
      intro hnone
      rw [List.mem_filter]
      refine ⟨order.complete _, List.any_eq_true.mpr ⟨r, ?_, ?_⟩⟩
      · unfold tables
        rw [hadd]
        exact hr
      · simp [missesScope, hnone]
    rw [← hall]
    exact .bind (.query hadded) (hbackfill _)

/-- The file before its tables are all there, with those that change their layout rebuilt. -/
def rebuilt (s : DbFile) : DbFile :=
  { s with
    trafficRules := if s.stale 7 then none else s.trafficRules
    observations := s.observations.rebuilt observationsV9 (s.stale 9)
    trafficBuckets := s.trafficBuckets.rebuilt trafficBucketsV10 (s.stale 10)
    entityBuckets := s.entityBuckets.rebuilt entityBucketsV10 (s.stale 10) }

/-- The file with all the columns of `flows`. -/
def withTables (s : DbFile) (t : Tables) : DbFile :=
  { s with
    flows := some ⟨t.flows, fun _ => true⟩
    flowDomains := some t.flowDomains
    flowStats := some (some t.flowStats) }

/-- The rows of the other tables are not among these. -/
def FlowsOnly (t : Tables) : Prop := ⟨t.flows, t.flowDomains, t.flowStats, ∅, ∅, ∅, ∅, ∅⟩ = t

theorem tables_withTables {t : Tables} (h : FlowsOnly t) : (s.withTables t).tables = t := h

theorem onTables_withTables {f : Tables → Tables} {t : Tables} (h : FlowsOnly t) :
    onTables f (s.withTables t) = s.withTables (f t) := by
  unfold onTables
  rw [tables_withTables h]
  rfl

theorem flowsOnly_scopedTables : FlowsOnly s.scopedTables := by
  unfold scopedTables
  split <;> rfl

theorem upgraded_eq :
    s.upgraded = { s.rebuilt.created.withTables s.tablesAfter with userVersion := schemaVersion } := by
  have hrules : s.rulesAfter =
      (if s.stale 7 then none else s.trafficRules).getD (.selectors {}) := by
    unfold rulesAfter
    split <;> rfl
  unfold upgraded
  rw [hrules]
  rfl

/-- Only a file of a version before `last`, but of one, runs what is for it. -/
theorem passes_stale {last : ℤ} {x : Action Unit} {t t' : DbFile}
    (hx : s.stale last = true → Passes x P t () t') (hn : s.stale last = false → t' = t) :
    Passes (.guarded (0 < s.userVersion ∧ s.userVersion < last) x) P t () t' := by
  apply Passes.guarded
  · intro hc
    exact hx (stale_iff.mpr hc)
  · intro hc
    exact hn (Bool.eq_false_iff.mpr (mt stale_iff.mp hc))

theorem between_renamed {t : DbFile} (h : ¬ t.NoneRenamed) : Between s t :=
  fun hnone _ => absurd hnone h

/-- The tables that change their layout, one after the other. -/
theorem passes_rebuilt (h : s.Ready) : s.Absorbed s.rebuilt ∧
    ∀ {x : Action Unit} {t : DbFile}, Passes x (Between s) s.rebuilt () t →
      Passes (do
        .guarded (0 < s.userVersion ∧ s.userVersion < 7) (execute dropRules)
        .guarded (0 < s.userVersion ∧ s.userVersion < 9) (rebuild observationsV9 observationsPart)
        .guarded (0 < s.userVersion ∧ s.userVersion < 10) do
          rebuild trafficBucketsV10 trafficBucketsPart
          rebuild entityBucketsV10 entityBucketsPart
        x) (Between s) s () t := by
  let s₁ : DbFile := { s with trafficRules := if s.stale 7 then none else s.trafficRules }
  let s₂ : DbFile := { s₁ with observations := s.observations.rebuilt observationsV9 (s.stale 9) }
  let s₃ : DbFile :=
    { s₂ with trafficBuckets := s.trafficBuckets.rebuilt trafficBucketsV10 (s.stale 10) }
  have hdropped : s.stale 7 = true → s₁ = s.dropRules := fun hstale => by simp [s₁, hstale, dropRules]
  have hkept : s.stale 7 = false → s₁ = s := fun hstale => by simp [s₁, hstale]
  have h₁ : s.Absorbed s₁ := by
    cases hstale : s.stale 7 with
    | false =>
      rw [hkept hstale]
      exact Absorbed.refl h
    | true =>
      rw [hdropped hstale]
      exact absorbed_dropRules h hstale
  have h₂ : s.Absorbed s₂ := h₁.trans (absorbed_observations h₁.ready
    (Slot.ready_rebuilt h.observations) (Slot.upgraded_rebuilt h.observations))
  have h₃ : s.Absorbed s₃ := h₂.trans (absorbed_trafficBuckets h₂.ready
    (Slot.ready_rebuilt h.trafficBuckets) (Slot.upgraded_rebuilt h.trafficBuckets))
  have h₄ : s.Absorbed s.rebuilt := h₃.trans (absorbed_entityBuckets h₃.ready
    (Slot.ready_rebuilt h.entityBuckets) (Slot.upgraded_rebuilt h.entityBuckets))
  have hrules : Passes (.guarded (0 < s.userVersion ∧ s.userVersion < 7) (execute dropRules))
      (Between s) s () s₁ := by
    apply passes_stale
    · intro hstale
      rw [hdropped hstale]
      exact .execute (Absorbed.refl h).between
    · exact hkept
  have hobservations : Passes (.guarded (0 < s.userVersion ∧ s.userVersion < 9)
      (rebuild observationsV9 observationsPart)) (Between s) s₁ () s₂ := by
    apply passes_stale
    · intro hstale
      have hready := h.observations
      simp only [s₂, hstale] at hready ⊢
      apply passes_rebuild observationsPart (fun _ _ => rfl) (fun _ _ _ => rfl) (fun _ => rfl)
      · exact hready
      · exact h₁.between
      · exact fun c hc => between_renamed fun hnone => hc hnone.observations
    · intro hstale
      simp only [s₂, hstale]
      rfl
  have hbuckets : Passes (.guarded (0 < s.userVersion ∧ s.userVersion < 10) (do
      rebuild trafficBucketsV10 trafficBucketsPart
      rebuild entityBucketsV10 entityBucketsPart)) (Between s) s₂ () s.rebuilt := by
    apply passes_stale
    · intro hstale
      have htraffic := h.trafficBuckets
      have hentities := h.entityBuckets
      rw [hstale] at htraffic hentities
      have hs₃ : s₃ = { s₂ with trafficBuckets := s.trafficBuckets.rebuilt trafficBucketsV10 true } := by
        simp only [s₃, hstale]
      have hs₄ : s.rebuilt = { s₃ with entityBuckets := s.entityBuckets.rebuilt entityBucketsV10 true } := by
        rw [← hstale]
        rfl
      have hfirst : Passes (rebuild trafficBucketsV10 trafficBucketsPart) (Between s) s₂ () s₃ := by
        rw [hs₃]
        apply passes_rebuild trafficBucketsPart (fun _ _ => rfl) (fun _ _ _ => rfl) (fun _ => rfl)
        · exact htraffic
        · exact h₂.between
        · exact fun c hc => between_renamed fun hnone => hc hnone.trafficBuckets
      have hsecond : Passes (rebuild entityBucketsV10 entityBucketsPart) (Between s) s₃ () s.rebuilt := by
        rw [hs₄]
        apply passes_rebuild entityBucketsPart (fun _ _ => rfl) (fun _ _ _ => rfl) (fun _ => rfl)
        · exact hentities
        · exact h₃.between
        · exact fun c hc => between_renamed fun hnone => hc hnone.entityBuckets
      exact hfirst.bind hsecond
    · intro hstale
      simp only [rebuilt, s₂, s₁, hstale]
      rfl
  exact ⟨h₄, fun hx => hrules.bind (hobservations.bind (hbuckets.bind hx))⟩

/-- What matters of a file on the way is where the columns for the scopes stood. -/
theorem Absorbed.between_trans {t u : DbFile} (h : s.Absorbed t)
    (hcolumn : t.flows.all (FlowsTable.columns · .dstScope) = s.flows.all (FlowsTable.columns · .dstScope))
    (hu : Between t u) : Between s u := by
  intro hnone hpending
  rcases hu hnone fun hp => hpending ⟨hcolumn ▸ hp.1, hp.2⟩ with hu | rfl
  · exact Or.inl (h.trans hu)
  · exact Or.inr h.upgraded

theorem withTables_scopedTables (h : s.Ready) :
    (if (s.flows.getD {}).columns .dstScope then
        addColumn .dstScope (addColumn .appId (addColumn .service s.rebuilt.created))
      else (addColumn .dstScope (addColumn .appId (addColumn .service s.rebuilt.created))).mapFlows
        FlowRow.scoped) = s.rebuilt.created.withTables s.scopedTables := by
  obtain ⟨_, _, _, _, _, flows, flowDomains, flowStats, _⟩ := s
  cases flows with
  | none => simp [addColumn, created, rebuilt, withTables, scopedTables, tables]
  | some flows =>
    obtain ⟨rows, columns⟩ := flows
    have hcolumns : (fun c' : FlowColumn => c' = .dstScope || (c' = .appId || (c' = .service ||
        columns c' : Bool) : Bool)) = fun _ => true := by
      ext1 c'
      cases c' <;> rfl
    cases hscope : columns .dstScope with
    | false =>
      simp [addColumn, created, rebuilt, withTables, scopedTables, tables, mapFlows, hscope, hcolumns]
    | true =>
      simp [addColumn, created, rebuilt, withTables, scopedTables, tables, hscope, hcolumns]

/-- The columns of `flows`, with a scope for each flow. -/
theorem passes_columns (order : ScopeOrder) (h : s.Ready) (hcreated : s.Absorbed s.rebuilt.created)
    {x : Action Unit} {t : DbFile}
    (hx : Passes x (Between s) (s.rebuilt.created.withTables s.scopedTables) () t) :
    Passes (do
      let _ ← addColumnIfMissing .service
      let _ ← addColumnIfMissing .appId
      let added ← addColumnIfMissing .dstScope
      .guarded added (backfillDstScope order)
      x) (Between s) s.rebuilt.created () t := by
  have hservice := hcreated.trans (absorbed_addColumn (c := .service) hcreated.ready (by decide))
  have happ := hservice.trans (absorbed_addColumn (c := .appId) hservice.ready (by decide))
  let t₁ := addColumn .appId (addColumn .service s.rebuilt.created)
  have hflows : t₁.flows = some { s.flows.getD {} with
      columns := fun c' => c' = .appId || (c' = .service || (s.flows.getD {}).columns c' : Bool) } := rfl
  have hcolumn : t₁.flows.all (FlowsTable.columns · .dstScope) =
      s.flows.all (FlowsTable.columns · .dstScope) := by
    rw [hflows]
    cases s.flows <;> simp
  have hscopes := passes_backfillDstScope order happ.ready hflows
    fun _ hu => happ.between_trans hcolumn hu
  rw [← withTables_scopedTables h] at hx
  refine .bind (passes_addColumnIfMissing hcreated.between) ?_
  refine .bind (passes_addColumnIfMissing hservice.between) ?_
  exact .bind (passes_addColumnIfMissing happ.between) (hscopes.bind (by simpa using hx))

theorem absorbed_withTables (hcreated : s.Absorbed s.rebuilt.created) :
    s.Absorbed (s.rebuilt.created.withTables s.scopedTables) := by
  refine hcreated.trans (absorbed_tables hcreated.ready rfl (tablesAfter_congr rfl ?_))
  rw [scopedTables_of_column rfl]
  refine (tables_withTables flowsOnly_scopedTables).trans ?_
  obtain ⟨_, _, _, _, _, flows, _, _, _⟩ := s
  cases flows <;> rfl

/-- The mirrors of the flows, once these have their scopes. -/
theorem passes_mirrors (h : s.Absorbed (s.rebuilt.created.withTables s.scopedTables)) {t : DbFile}
    {x : Action Unit} (hx : s.Absorbed (s.rebuilt.created.withTables s.tablesAfter) →
      Passes x (Between s) (s.rebuilt.created.withTables s.tablesAfter) () t) :
    Passes (do
      .guarded (0 < s.userVersion ∧ s.userVersion < 12) do
        execute id
        execute id
        execute (onTables Tables.backfillFlowDomains)
      .guarded (0 < s.userVersion ∧ s.userVersion < 13) (execute (onTables Tables.backfillFlowStats))
      x) (Between s) (s.rebuilt.created.withTables s.scopedTables) () t := by
  let t₁ := if s.stale 12 then s.scopedTables.backfillFlowDomains else s.scopedTables
  have hbackfilled : s.stale 12 = true → t₁ = s.scopedTables.backfillFlowDomains :=
    fun hstale => if_pos hstale
  have hkept : s.stale 12 = false → t₁ = s.scopedTables := fun hstale => if_neg (by simp [hstale])
  have hafter : s.tablesAfter = if s.stale 13 then t₁.backfillFlowStats else t₁ := rfl
  have h₁ : s.Absorbed (s.rebuilt.created.withTables t₁) := by
    cases hstale : s.stale 12 with
    | false =>
      rw [hkept hstale]
      exact h
    | true =>
      rw [hbackfilled hstale, ← onTables_withTables flowsOnly_scopedTables]
      exact h.trans (absorbed_backfillFlowDomains h.ready hstale rfl rfl rfl)
  have h₂ : s.Absorbed (s.rebuilt.created.withTables s.tablesAfter) := by
    rw [hafter]
    cases hstale : s.stale 13 with
    | false => exact h₁
    | true => exact h₁.trans (absorbed_backfillFlowStats h₁.ready hstale rfl rfl rfl)
  have hdomains : Passes (.guarded (0 < s.userVersion ∧ s.userVersion < 12) (do
      execute id
      execute id
      execute (onTables Tables.backfillFlowDomains))) (Between s)
        (s.rebuilt.created.withTables s.scopedTables) () (s.rebuilt.created.withTables t₁) := by
    apply passes_stale
    · intro hstale
      rw [hbackfilled hstale, ← onTables_withTables flowsOnly_scopedTables]
      exact .bind (.execute h.between) (.bind (.execute h.between) (.execute h.between))
    · intro hstale
      rw [hkept hstale]
  have hstats : Passes (.guarded (0 < s.userVersion ∧ s.userVersion < 13)
      (execute (onTables Tables.backfillFlowStats))) (Between s)
        (s.rebuilt.created.withTables t₁) () (s.rebuilt.created.withTables s.tablesAfter) := by
    rw [hafter]
    apply passes_stale
    · intro hstale
      rw [hstale]
      exact .execute h₁.between
    · intro hstale
      rw [hstale]
      rfl
  exact hdomains.bind (hstats.bind (hx h₂))

/-- An open of a file of an earlier version upgrades it, and wherever it is cut off the file
is on its way there. -/
theorem passes_fromConnection (order : ScopeOrder) (h : s.Ready) :
    Passes (fromConnection order) (Between s) s () s.upgraded := by
  have hupgrade : Passes (upgrade order s.userVersion) (Between s) s () s.upgraded := by
    obtain ⟨hrebuilt, hrest⟩ := passes_rebuilt h
    apply hrest
    obtain ⟨hschema, hcreated⟩ := passes_schemaSql hrebuilt.ready (P := Between s)
      fun t ht => (hrebuilt.trans ht).between
    apply hschema.bind
    have hcreated := hrebuilt.trans hcreated
    apply passes_columns order h hcreated
    apply passes_mirrors (absorbed_withTables hcreated)
    intro hafter
    rw [upgraded_eq]
    exact .execute hafter.between
  refine .bind (.query (Absorbed.refl h).between) (.bind (.guarded (fun _ => hupgrade) ?_) ?_)
  · intro hversion
    exact absurd h.version hversion
  · exact .query fun _ _ => Or.inr rfl

/-- A file of this version stays as it is. -/
theorem passes_fromConnection_of_le (order : ScopeOrder) (h : schemaVersion ≤ s.userVersion) :
    Passes (fromConnection order) (· = s) s () s :=
  .bind (.query rfl) (.bind (.guarded (fun hc => absurd hc h.not_gt) fun _ => rfl) (.query rfl))

end Phases

end DbFile

end ZimaScope
