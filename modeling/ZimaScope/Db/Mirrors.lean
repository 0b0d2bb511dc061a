import ZimaScope.Db.Schema

/-! # Trigger-maintained mirrors

`flow_stats` and `flow_domains` repeat what `flows` says. Each statement on
`flows` changes them, through its triggers, by exactly what it changes in the
rows.
-/

namespace ZimaScope

/-- What a domain is associated with: the last entry of the list, should it have several. -/
def association (domains : List DomainRefDto) (domain : String) :
    Option (DomainEvidence × AssociationConfidence) :=
  (domains.reverse.find? fun d => d.domain = domain).map fun d => (d.evidence, d.confidence)

theorem association_cons (d : DomainRefDto) (domains : List DomainRefDto) (domain : String) :
    association (d :: domains) domain = (association domains domain).or
      (if d.domain = domain then some (d.evidence, d.confidence) else none) := by
  unfold association
  rw [List.reverse_cons, List.find?_append]
  cases domains.reverse.find? fun d => d.domain = domain with
  | some d' => rfl
  | none => by_cases h : d.domain = domain <;> simp [h]

theorem association_eq_some_iff {domains : List DomainRefDto}
    (hn : (domains.map DomainRefDto.domain).Nodup) {domain : String} {evidence : DomainEvidence}
    {confidence : AssociationConfidence} :
    association domains domain = some (evidence, confidence) ↔
      ⟨domain, evidence, confidence⟩ ∈ domains := by
  induction domains generalizing evidence confidence with
  | nil => simp [association]
  | cons d domains ih =>
    obtain ⟨hd, hrest⟩ := List.nodup_cons.mp hn
    rw [association_cons, List.mem_cons, ← ih hrest]
    obtain ⟨name, e, c⟩ := d
    by_cases hdomain : name = domain
    · subst hdomain
      have hnone : association domains name = none := by
        rw [Option.eq_none_iff_forall_ne_some]
        rintro ⟨e, c⟩ he
        exact hd (List.mem_map.mpr ⟨_, (ih hrest).mp he, rfl⟩)
      simp [hnone, eq_comm]
    · simp [hdomain, Ne.symm hdomain]

/-- The columns of `flow_stats`. -/
inductive StatColumn | flowsTotal | activeFlows | flowsWithDomain

def FlowStats.get (s : FlowStats) : StatColumn → ℤ
  | .flowsTotal => s.flowsTotal
  | .activeFlows => s.activeFlows
  | .flowsWithDomain => s.flowsWithDomain

theorem FlowStats.ext_get {s s' : FlowStats} (h : ∀ c, s.get c = s'.get c) : s = s' := by
  cases s
  cases s'
  have htotal := h .flowsTotal
  have hactive := h .activeFlows
  have hdomain := h .flowsWithDomain
  simp_all [FlowStats.get]

/-- What a row counts in a column. -/
def FlowRow.count (row : FlowRow) : StatColumn → ℤ
  | .flowsTotal => 1
  | .activeFlows => sqlBool (row.state = .active)
  | .flowsWithDomain => sqlBool (row.domainsJson ≠ [])

theorem get_trgFlowStatsInsert (new : FlowRow) (s : FlowStats) (c : StatColumn) :
    (trgFlowStatsInsert new s).get c = s.get c + new.count c := by
  cases c <;> rfl

theorem get_trgFlowStatsUpdate (old new : FlowRow) (s : FlowStats) (c : StatColumn) :
    (trgFlowStatsUpdate old new s).get c = s.get c + (new.count c - old.count c) := by
  cases c with
  | flowsTotal => exact (add_zero _).symm
  | activeFlows => exact add_sub_assoc _ _ _
  | flowsWithDomain => exact add_sub_assoc _ _ _

theorem get_trgFlowStatsDelete (old : FlowRow) (s : FlowStats) (c : StatColumn) :
    (trgFlowStatsDelete old s).get c = s.get c - old.count c := by
  cases c <;> rfl

namespace Tables

/-- The counters, counted again. -/
def recount (t : Tables) : FlowStats where
  flowsTotal := t.flows.total fun _ _ => 1
  activeFlows := t.flows.total fun _ row => sqlBool (row.state = .active)
  flowsWithDomain := t.flows.total fun _ row => sqlBool (row.domainsJson ≠ [])

theorem get_recount (t : Tables) (c : StatColumn) :
    t.recount.get c = t.flows.total fun _ row => row.count c := by
  cases c <;> rfl

/-- `flow_stats` is what a recount gives. -/
def StatsExact (t : Tables) : Prop := t.flowStats = t.recount

/-- `flow_domains` has one row for each flow and each domain its list has, with what the
domain is associated with there. -/
def DomainsExact (t : Tables) : Prop :=
  ∀ id domain, t.flowDomains.find (id, domain) =
    (t.flows.find id).bind fun row => association row.domainsJson domain

/-- The mirrors say what `flows` says. -/
structure Mirrored (t : Tables) : Prop where
  stats : t.StatsExact
  domains : t.DomainsExact

end Tables

/-! ## The domain mirror -/

section Domains

variable {t : FlowDomains} {id id' : UInt64} {old new : FlowRow} {domain : String}

theorem find_mirrorDomains {domains : List DomainRefDto} :
    (mirrorDomains id domains t).find (id', domain) =
      if id' = id then (association domains domain).or (t.find (id', domain))
      else t.find (id', domain) := by
  unfold mirrorDomains
  induction domains generalizing t with
  | nil => simp [association]
  | cons d domains ih =>
    rw [List.foldl_cons, ih, association_cons]
    by_cases hid : id' = id
    · subst hid
      by_cases hdomain : d.domain = domain
      · simp [Table.find_upsert, hdomain]
      · simp [Table.find_upsert, hdomain, Ne.symm hdomain]
    · simp [Table.find_upsert, hid]

theorem find_trgFlowDomainsDelete : (trgFlowDomainsDelete id t).find (id', domain) =
    if id' = id then none else t.find (id', domain) := by
  unfold trgFlowDomainsDelete
  rw [Table.find_filter]
  by_cases hid : id' = id
  · simp [hid]
  · cases t.find (id', domain) <;> simp [hid]

theorem find_trgFlowDomainsInsert (h : t.find (id, domain) = none) :
    (trgFlowDomainsInsert id new t).find (id, domain) = association new.domainsJson domain := by
  unfold trgFlowDomainsInsert
  split
  · next hnil => rw [h, hnil]; rfl
  · rw [find_mirrorDomains, if_pos rfl, h, Option.or_none]

theorem find_trgFlowDomainsUpdate (h : t.find (id, domain) = association old.domainsJson domain) :
    (trgFlowDomainsUpdate id old new t).find (id, domain) =
      association new.domainsJson domain := by
  unfold trgFlowDomainsUpdate
  split
  · next heq => rw [h, heq]
  · rw [find_mirrorDomains, if_pos rfl, find_trgFlowDomainsDelete, if_pos rfl, Option.or_none]

theorem find_trgFlowDomainsInsert_of_ne (h : id' ≠ id) :
    (trgFlowDomainsInsert id new t).find (id', domain) = t.find (id', domain) := by
  unfold trgFlowDomainsInsert
  split
  · rfl
  · rw [find_mirrorDomains, if_neg h]

theorem find_trgFlowDomainsUpdate_of_ne (h : id' ≠ id) :
    (trgFlowDomainsUpdate id old new t).find (id', domain) = t.find (id', domain) := by
  unfold trgFlowDomainsUpdate
  split
  · rfl
  · rw [find_mirrorDomains, if_neg h, find_trgFlowDomainsDelete, if_neg h]

end Domains

namespace Tables

variable {t : Tables} {id : UInt64} {row : FlowRow}

/-! ## Statements -/

theorem insertFlow_of_none (h : t.flows.find id = none) : t.insertFlow id row =
    { t with flows := t.flows.upsert id fun _ => row }.onInsert id row := by
  unfold insertFlow
  rw [h]

theorem insertFlow_of_some {old : FlowRow} (h : t.flows.find id = some old) :
    t.insertFlow id row = { t with flows := t.flows.upsert id fun _ => old.onConflict row }.onUpdate
      id old (old.onConflict row) := by
  unfold insertFlow
  rw [h]

theorem insertFlow_stats (h : t.StatsExact) : (t.insertFlow id row).StatsExact := by
  refine FlowStats.ext_get fun c => ?_
  rw [get_recount]
  cases hf : t.flows.find id with
  | none =>
    rw [insertFlow_of_none hf]
    change (trgFlowStatsInsert row t.flowStats).get c = _
    rw [get_trgFlowStatsInsert, h, get_recount]
    refine (Table.total_upsert_of_add ?_).symm
    rw [hf]
    exact (zero_add _).symm
  | some old =>
    rw [insertFlow_of_some hf]
    change (trgFlowStatsUpdate old (old.onConflict row) t.flowStats).get c = _
    rw [get_trgFlowStatsUpdate, h, get_recount]
    refine (Table.total_upsert_of_add ?_).symm
    rw [hf]
    exact (add_sub_cancel _ _).symm

theorem insertFlow_domains (h : t.DomainsExact) : (t.insertFlow id row).DomainsExact := by
  intro id' domain
  have hold := h id domain
  cases hf : t.flows.find id with
  | none =>
    rw [hf] at hold
    rw [insertFlow_of_none hf]
    change (trgFlowDomainsInsert id row t.flowDomains).find (id', domain) =
      ((t.flows.upsert id fun _ => row).find id').bind _
    rw [Table.find_upsert]
    by_cases hid : id' = id
    · rw [if_pos hid, hid, find_trgFlowDomainsInsert hold, Option.bind_some]
    · rw [if_neg hid, find_trgFlowDomainsInsert_of_ne hid, h]
  | some old =>
    rw [hf] at hold
    rw [insertFlow_of_some hf]
    change (trgFlowDomainsUpdate id old (old.onConflict row) t.flowDomains).find (id', domain) =
      ((t.flows.upsert id fun _ => old.onConflict row).find id').bind _
    rw [Table.find_upsert]
    by_cases hid : id' = id
    · rw [if_pos hid, hid, find_trgFlowDomainsUpdate hold, Option.bind_some]
    · rw [if_neg hid, find_trgFlowDomainsUpdate_of_ne hid, h]

/-! The triggers of a statement run row by row, over rows of different flows. -/

section Rows

variable {rows : List (UInt64 × FlowRow)} {f : Tables → UInt64 → FlowRow → Tables}

/-- What no trigger changes, the statement does not change. -/
theorem frame_foldl {β : Type*} {g : Tables → β} (h : ∀ t id row, g (f t id row) = g t) :
    g (rows.foldl (fun t r => f t r.1 r.2) t) = g t := by
  induction rows generalizing t with
  | nil => rfl
  | cons r rows ih => rw [List.foldl_cons, ih, h]

theorem get_foldl {d : FlowRow → ℤ} {c : StatColumn}
    (h : ∀ t id row, (f t id row).flowStats.get c = t.flowStats.get c + d row) :
    (rows.foldl (fun t r => f t r.1 r.2) t).flowStats.get c =
      t.flowStats.get c + (rows.map fun r => d r.2).sum := by
  induction rows generalizing t with
  | nil => exact (add_zero _).symm
  | cons r rows ih => rw [List.foldl_cons, ih, h, List.map_cons, List.sum_cons, add_assoc]

variable {domain : String}

theorem find_foldl_of_notMem
    (h : ∀ t id id' row, id' ≠ id →
      (f t id row).flowDomains.find (id', domain) = t.flowDomains.find (id', domain))
    (hid : ∀ r ∈ rows, id ≠ r.1) :
    (rows.foldl (fun t r => f t r.1 r.2) t).flowDomains.find (id, domain) =
      t.flowDomains.find (id, domain) := by
  induction rows generalizing t with
  | nil => rfl
  | cons r rows ih =>
    rw [List.foldl_cons, ih fun r hr => hid r (List.mem_cons_of_mem _ hr),
      h _ _ _ _ (hid r List.mem_cons_self)]

/-- What the triggers of one row leave is left at the end. -/
theorem find_foldl_of_mem {R : Option (DomainEvidence × AssociationConfidence)}
    (h : ∀ t id id' row, id' ≠ id →
      (f t id row).flowDomains.find (id', domain) = t.flowDomains.find (id', domain))
    (hn : (rows.map Prod.fst).Nodup) (hr : (id, row) ∈ rows)
    (hf' : ∀ t' : Tables, t'.flowDomains.find (id, domain) = t.flowDomains.find (id, domain) →
      (f t' id row).flowDomains.find (id, domain) = R) :
    (rows.foldl (fun t r => f t r.1 r.2) t).flowDomains.find (id, domain) = R := by
  induction rows generalizing t with
  | nil => simp at hr
  | cons r rows ih =>
    obtain ⟨hfirst, hn⟩ := List.nodup_cons.mp hn
    rw [List.foldl_cons]
    rcases List.mem_cons.mp hr with rfl | hr
    · rw [find_foldl_of_notMem h, hf' t rfl]
      rintro r' hr' rfl
      exact hfirst (List.mem_map.mpr ⟨r', hr', rfl⟩)
    · have hne : id ≠ r.1 := by
        rintro rfl
        exact hfirst (List.mem_map.mpr ⟨_, hr, rfl⟩)
      refine ih hn hr fun t' ht' => hf' t' (ht'.trans (h _ _ _ _ hne))

end Rows

section Statements

variable {set : FlowRow → FlowRow} {cond : UInt64 → FlowRow → Bool}

theorem flows_updateFlows : (t.updateFlows set cond).flows =
    t.flows.mapRows fun id row => if cond id row then set row else row :=
  frame_foldl (g := flows) (f := fun t id row => t.onUpdate id row (set row)) fun _ _ _ => rfl

theorem flows_deleteFlows :
    (t.deleteFlows cond).flows = t.flows.filter fun id row => !cond id row :=
  frame_foldl (g := flows) (f := onDelete) fun _ _ _ => rfl

theorem mem_rows_filter : (id, row) ∈ (t.flows.filter cond).rows ↔
    t.flows.find id = some row ∧ cond id row = true := by
  rw [← Table.find_eq_some_iff, Table.find_filter, Option.filter_eq_some_iff]

/-- A row the statement does not touch. -/
theorem notMem_rows_filter (h : ∀ row, t.flows.find id = some row → cond id row = false) :
    ∀ r ∈ (t.flows.filter cond).rows, id ≠ r.1 := by
  rintro ⟨id', row⟩ hr rfl
  obtain ⟨hfind, hcond⟩ := mem_rows_filter.mp hr
  rw [h row hfind] at hcond
  simp at hcond

/-- The domain mirror after a statement, by what the triggers of a row make of its own
entries. -/
theorem DomainsExact.find_foldl {f : Tables → UInt64 → FlowRow → Tables} {s : Tables}
    {R : FlowRow → Option (DomainEvidence × AssociationConfidence)} {domain : String}
    (h : t.DomainsExact) (hs : s.flowDomains = t.flowDomains)
    (hne : ∀ t id id' row, id' ≠ id →
      (f t id row).flowDomains.find (id', domain) = t.flowDomains.find (id', domain))
    (hf' : ∀ (t' : Tables) row,
      t'.flowDomains.find (id, domain) = association row.domainsJson domain →
        (f t' id row).flowDomains.find (id, domain) = R row) :
    ((t.flows.filter cond).rows.foldl (fun t r => f t r.1 r.2) s).flowDomains.find (id, domain) =
      (t.flows.find id).bind fun row =>
        if cond id row then R row else association row.domainsJson domain := by
  have hold := h id domain
  cases hf : t.flows.find id with
  | none =>
    rw [find_foldl_of_notMem hne, hs, hold, hf]
    · rfl
    · refine notMem_rows_filter fun row hrow => ?_
      rw [hf] at hrow
      simp at hrow
  | some row =>
    rw [hf] at hold
    rw [Option.bind_some]
    split
    · next hcond =>
      refine find_foldl_of_mem hne (t.flows.filter cond).nodup
        (mem_rows_filter.mpr ⟨hf, hcond⟩) fun t' ht' => hf' t' row ?_
      rw [ht', hs]
      exact hold
    · next hcond =>
      rw [find_foldl_of_notMem hne, hs]
      · exact hold
      · refine notMem_rows_filter fun row' hrow' => ?_
        rw [hf] at hrow'
        obtain rfl := Option.some.inj hrow'
        simpa using hcond

/-- A counter after a statement, by what the triggers add to it for a row. -/
theorem StatsExact.get_foldl {f : Tables → UInt64 → FlowRow → Tables} {s : Tables}
    {d : FlowRow → ℤ} {c : StatColumn} (h : t.StatsExact) (hs : s.flowStats = t.flowStats)
    (hf : ∀ t id row, (f t id row).flowStats.get c = t.flowStats.get c + d row) :
    ((t.flows.filter cond).rows.foldl (fun t r => f t r.1 r.2) s).flowStats.get c =
      t.flows.total fun id row => row.count c + if cond id row then d row else 0 := by
  have hrows : (t.flows.filter cond).total (fun _ row => d row) =
      t.flows.total fun id row => if cond id row then d row else 0 := Table.total_filter
  rw [Tables.get_foldl hf, hs, h, get_recount, Table.total_add, ← hrows]
  rfl

theorem updateFlows_stats (h : t.StatsExact) : (t.updateFlows set cond).StatsExact := by
  refine FlowStats.ext_get fun c => ?_
  rw [get_recount, flows_updateFlows, Table.total_mapRows]
  refine (h.get_foldl
    (s := { t with flows := t.flows.mapRows fun id row => if cond id row then set row else row })
    (f := fun t id row => t.onUpdate id row (set row)) rfl
    fun t id row => get_trgFlowStatsUpdate row (set row) t.flowStats c).trans ?_
  refine Table.total_congr fun id row _ => ?_
  cases cond id row with
  | false => exact add_zero _
  | true => exact add_sub_cancel _ _

theorem updateFlows_domains (h : t.DomainsExact) : (t.updateFlows set cond).DomainsExact := by
  intro id domain
  rw [flows_updateFlows, Table.find_mapRows]
  refine (h.find_foldl
    (s := { t with flows := t.flows.mapRows fun id row => if cond id row then set row else row })
    (f := fun t id row => t.onUpdate id row (set row))
    (R := fun row => association (set row).domainsJson domain) rfl
    (fun t id id' row hid => find_trgFlowDomainsUpdate_of_ne hid)
    fun t' row ht' => find_trgFlowDomainsUpdate ht').trans ?_
  cases t.flows.find id with
  | none => rfl
  | some row =>
    rw [Option.map_some, Option.bind_some, Option.bind_some]
    split <;> rfl

theorem deleteFlows_stats (h : t.StatsExact) : (t.deleteFlows cond).StatsExact := by
  refine FlowStats.ext_get fun c => ?_
  rw [get_recount, flows_deleteFlows, Table.total_filter]
  refine (h.get_foldl (s := { t with flows := t.flows.filter fun id row => !cond id row })
    (f := onDelete) (d := fun row => -row.count c) rfl fun t id row =>
      (get_trgFlowStatsDelete row t.flowStats c).trans (sub_eq_add_neg _ _)).trans ?_
  refine Table.total_congr fun id row _ => ?_
  cases cond id row with
  | false => exact add_zero _
  | true => exact add_neg_cancel _

theorem deleteFlows_domains (h : t.DomainsExact) : (t.deleteFlows cond).DomainsExact := by
  intro id domain
  rw [flows_deleteFlows, Table.find_filter]
  refine (h.find_foldl (s := { t with flows := t.flows.filter fun id row => !cond id row })
    (f := onDelete) (R := fun _ => none) rfl
    (fun t id id' row hid => find_trgFlowDomainsDelete.trans (if_neg hid))
    fun t' row _ => find_trgFlowDomainsDelete.trans (if_pos rfl)).trans ?_
  cases t.flows.find id with
  | none => rfl
  | some row => cases hcond : cond id row <;> simp [hcond, Option.filter]

end Statements

end Tables

end ZimaScope
