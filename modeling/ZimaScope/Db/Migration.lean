import ZimaScope.Db.Mirrors
import ZimaScope.Lib.System

/-! # Opening a database

What `Db::from_connection` does to the flows and their mirrors in a database of
an older schema version, and the mirrors in every run of statements after it.
The steps that concern other tables are not part of it.
-/

namespace ZimaScope

/-- A database file as far as flows go. A table that is not there yet is `none`; an
`INTEGER` column that is not there yet reads as `NULL`. -/
structure StoredDb where
  userVersion : ℤ
  flows : Table UInt64 FlowRow
  flowDomains : Option FlowDomains := none
  flowStats : Option FlowStats := none
  hasDstScope : Bool := true

def schemaVersion : ℤ := 14

def AddressScope.all : List AddressScope :=
  [publicScope, privateScope, shared, fakeIp, loopback, linkLocal, uniqueLocal, multicast,
    broadcast, documentation, reserved, unspecified]

namespace Tables

/-- `backfill_dst_scope`: one update for each scope that occurs. -/
def backfillDstScope (t : Tables) : Tables :=
  AddressScope.all.foldl (fun t scope => t.updateFlows (fun row => { row with dstScope := some scope })
    fun _ row => row.dstScope = none && AddressScope.classify row.key.destination.address = scope) t

/-- `backfill_flow_domains`. -/
def backfillFlowDomains (t : Tables) : Tables :=
  t.flows.rows.foldl (fun t r =>
    { t with flowDomains := mirrorDomains r.1 r.2.domainsJson t.flowDomains }) t

/-- `backfill_flow_stats`. -/
def backfillFlowStats (t : Tables) : Tables := { t with flowStats := t.recount }

end Tables

namespace StoredDb

/-- The tables after the schema has run: those that were missing are there, and empty. -/
def withSchema (s : StoredDb) : Tables where
  flows := s.flows
  flowDomains := s.flowDomains.getD ∅
  flowStats := s.flowStats.getD {}

/-- `Db::from_connection`. -/
def fromConnection (s : StoredDb) : Tables :=
  if s.userVersion < schemaVersion then
    let t := if s.hasDstScope then s.withSchema else s.withSchema.backfillDstScope
    let t := if 0 < s.userVersion ∧ s.userVersion < 12 then t.backfillFlowDomains else t
    if 0 < s.userVersion ∧ s.userVersion < 13 then t.backfillFlowStats else t
  else s.withSchema

/-- The database is as a daemon of its version leaves it: version 12 has brought
`flow_domains` and version 13 `flow_stats`, each exact from then on, and a database without
a version is empty. -/
structure Left (s : StoredDb) : Prop where
  empty : s.userVersion ≤ 0 → s.flows = ∅
  noDomains : s.userVersion < 12 → s.flowDomains = none
  domains : 12 ≤ s.userVersion → s.withSchema.DomainsExact
  noStats : s.userVersion < 13 → s.flowStats = none
  stats : 13 ≤ s.userVersion → s.withSchema.StatsExact

end StoredDb

/-- The statements the daemon runs on `flows`. -/
inductive FlowStatement
  | insert (id : UInt64) (row : FlowRow)
  | update (set : FlowRow → FlowRow) (cond : UInt64 → FlowRow → Bool)
  | delete (cond : UInt64 → FlowRow → Bool)

namespace Tables

def exec (t : Tables) : FlowStatement → Tables
  | .insert id row => t.insertFlow id row
  | .update set cond => t.updateFlows set cond
  | .delete cond => t.deleteFlows cond

/-- Statements one after the other, on `flows` or on a table that has no part in its
mirrors. -/
def statements (t₀ : Tables) : System Tables where
  init t := t = t₀
  step t t' := (∃ statement, t' = t.exec statement) ∨
    (t'.flows = t.flows ∧ t'.flowDomains = t.flowDomains ∧ t'.flowStats = t.flowStats)

variable {t t' : Tables}

theorem exec_mirrored (h : t.Mirrored) (statement : FlowStatement) : (t.exec statement).Mirrored := by
  cases statement with
  | insert id row => exact ⟨insertFlow_stats h.stats, insertFlow_domains h.domains⟩
  | update set cond => exact ⟨updateFlows_stats h.stats, updateFlows_domains h.domains⟩
  | delete cond => exact ⟨deleteFlows_stats h.stats, deleteFlows_domains h.domains⟩

theorem DomainsExact.of_eq (h : t.DomainsExact) (hf : t'.flows = t.flows)
    (hd : t'.flowDomains = t.flowDomains) : t'.DomainsExact := by
  intro id domain
  rw [hd, hf]
  exact h id domain

theorem StatsExact.of_eq (h : t.StatsExact) (hf : t'.flows = t.flows)
    (hs : t'.flowStats = t.flowStats) : t'.StatsExact := by
  unfold StatsExact recount at h ⊢
  rw [hs, hf]
  exact h

/-! ## Backfills -/

theorem backfillFlowStats_stats : t.backfillFlowStats.StatsExact := rfl

theorem backfillDstScope_stats (h : t.StatsExact) : t.backfillDstScope.StatsExact := by
  unfold backfillDstScope
  induction AddressScope.all generalizing t with
  | nil => exact h
  | cons scope scopes ih => exact ih (updateFlows_stats h)

theorem backfillDstScope_domains (h : t.DomainsExact) : t.backfillDstScope.DomainsExact := by
  unfold backfillDstScope
  induction AddressScope.all generalizing t with
  | nil => exact h
  | cons scope scopes ih => exact ih (updateFlows_domains h)

/-- An update that keeps the lists fires no domain trigger. -/
theorem flowDomains_updateFlows {set : FlowRow → FlowRow} {cond : UInt64 → FlowRow → Bool}
    (h : ∀ row, (set row).domainsJson = row.domainsJson) :
    (t.updateFlows set cond).flowDomains = t.flowDomains :=
  frame_foldl (g := flowDomains) (f := fun t id row => t.onUpdate id row (set row))
    fun _ _ row => if_pos (h row)

theorem flowDomains_backfillDstScope : t.backfillDstScope.flowDomains = t.flowDomains := by
  unfold backfillDstScope
  induction AddressScope.all generalizing t with
  | nil => rfl
  | cons scope scopes ih => exact ih.trans (flowDomains_updateFlows fun _ => rfl)

/-- The backfill of an empty mirror. -/
theorem backfillFlowDomains_domains (h : t.flowDomains = ∅) :
    t.backfillFlowDomains.DomainsExact := by
  intro id domain
  have hne : ∀ (t : Tables) id id' (row : FlowRow), id' ≠ id →
      ({ t with flowDomains := mirrorDomains id row.domainsJson t.flowDomains } : Tables).flowDomains.find
        (id', domain) = t.flowDomains.find (id', domain) :=
    fun t id id' row hid => find_mirrorDomains.trans (if_neg hid)
  have hflows : t.backfillFlowDomains.flows = t.flows :=
    frame_foldl (g := flows) (f := fun t id row =>
      { t with flowDomains := mirrorDomains id row.domainsJson t.flowDomains }) fun _ _ _ => rfl
  rw [hflows]
  cases hf : t.flows.find id with
  | none =>
    refine (find_foldl_of_notMem hne ?_).trans ?_
    · rintro ⟨id', row⟩ hr rfl
      exact Table.find_eq_none_iff.mp hf row hr
    · rw [h]
      rfl
  | some row =>
    refine find_foldl_of_mem hne t.flows.nodup (Table.find_eq_some_iff.mp hf) fun t' ht' => ?_
    rw [h] at ht'
    refine find_mirrorDomains.trans ?_
    rw [if_pos rfl, ht', Option.bind_some]
    exact Option.or_none

end Tables

namespace StoredDb

variable {s : StoredDb}

theorem Left.withSchema_stats (h : s.Left) (hv : s.userVersion ≤ 0 ∨ 13 ≤ s.userVersion) :
    s.withSchema.StatsExact := by
  rcases hv with hv | hv
  · have hnone : s.flowStats = none := h.noStats (by omega)
    unfold Tables.StatsExact Tables.recount withSchema
    rw [h.empty hv, hnone]
    rfl
  · exact h.stats hv

theorem Left.withSchema_domains (h : s.Left) (hv : s.userVersion ≤ 0 ∨ 12 ≤ s.userVersion) :
    s.withSchema.DomainsExact := by
  rcases hv with hv | hv
  · have hnone : s.flowDomains = none := h.noDomains (by omega)
    intro id domain
    unfold withSchema
    rw [h.empty hv, hnone]
    rfl
  · exact h.domains hv

/-- A database of any version that was left in order has exact mirrors once it is open. -/
theorem fromConnection_mirrored (h : s.Left) : s.fromConnection.Mirrored := by
  unfold fromConnection
  split
  · next hold =>
    generalize ht : (if s.hasDstScope then s.withSchema else s.withSchema.backfillDstScope) = t
    have hstats : s.withSchema.StatsExact → t.StatsExact := by
      intro hexact
      subst ht
      split
      · exact hexact
      · exact Tables.backfillDstScope_stats hexact
    have hdomains : s.withSchema.DomainsExact → t.DomainsExact := by
      intro hexact
      subst ht
      split
      · exact hexact
      · exact Tables.backfillDstScope_domains hexact
    have hempty : s.withSchema.flowDomains = ∅ → t.flowDomains = ∅ := by
      intro hexact
      subst ht
      split
      · exact hexact
      · exact Tables.flowDomains_backfillDstScope.trans hexact
    simp only
    -- which backfills run depends on the tables the version already had
    by_cases hv : 0 < s.userVersion ∧ s.userVersion < 12
    · rw [if_pos hv, if_pos (by omega)]
      have hnone : s.flowDomains = none := h.noDomains hv.2
      refine ⟨Tables.backfillFlowStats_stats, ?_⟩
      refine (Tables.backfillFlowDomains_domains (hempty ?_)).of_eq rfl rfl
      unfold withSchema
      rw [hnone]
      rfl
    · rw [if_neg hv]
      have hexact := hdomains (h.withSchema_domains (by omega))
      split
      · exact ⟨Tables.backfillFlowStats_stats, hexact.of_eq rfl rfl⟩
      · exact ⟨hstats (h.withSchema_stats (by omega)), hexact⟩
  · next hold =>
    unfold schemaVersion at hold
    exact ⟨h.stats (by omega), h.domains (by omega)⟩

end StoredDb

/-- The mirrors are exact after every statement, whatever version the database was
opened from. -/
theorem mirrors_exact {s : StoredDb} (hs : s.Left) {t : Tables}
    (hr : (Tables.statements s.fromConnection).Reachable t) : t.Mirrored := by
  refine hr.invariant ?_ ?_
  · rintro _ rfl
    exact StoredDb.fromConnection_mirrored hs
  · rintro t t' ht (⟨statement, rfl⟩ | ⟨hf, hd, hstats⟩)
    · exact Tables.exec_mirrored ht statement
    · exact ⟨ht.stats.of_eq hf hstats, ht.domains.of_eq hf hd⟩

/-- A database of version 11 with one flow to a known domain. -/
def version11 : StoredDb where
  userVersion := 11
  flows := Table.upsert ∅ 1 fun _ =>
    { key := {
        source := ⟨.v4 (.new 192 168 1 2), some 40000⟩
        destination := ⟨.v4 (.new 203 0 113 1), some 443⟩
        interfaceIndex := ⟨2, ifindex_two_ne_zero⟩
        protocol := .tcp
        direction := .outbound }
      interface := some "eth0"
      packets := 3
      bytes := 300
      firstSeenMs := 1000
      lastSeenMs := 2000
      state := .active
      remote := ⟨.v4 (.new 203 0 113 1), some 443⟩
      profile := { scope := .documentation }
      domainsJson := [⟨"example.org", .tlsSni, .direct⟩]
      service := none
      appId := none
      dstScope := none }
  hasDstScope := false

theorem mirrors_exact_version11 :
    (version11.fromConnection.deleteFlows fun _ row => row.lastSeenMs < 1500).Mirrored := by
  have hleft : version11.Left :=
    ⟨fun h => by simp [version11] at h, fun _ => rfl, fun h => by simp [version11] at h,
      fun _ => rfl, fun h => by simp [version11] at h⟩
  exact mirrors_exact hleft (.step (.init rfl) (Or.inl ⟨.delete _, rfl⟩))

end ZimaScope
