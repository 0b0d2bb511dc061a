import ZimaScope.Collector.Tracker
import ZimaScope.Db.Deltas
import ZimaScope.Db.Operations
import ZimaScope.Lib.System

/-! # Totals of the stored flows

A row takes over the counters of the kernel entry. They are the sum of the
deltas ingested for the flow since its row was inserted as long as no update
starts the counters anew; what was ingested is kept beside the database, in a
ledger no operation reads.
-/

namespace ZimaScope

open TrafficDb

/-! ## The ledger -/

def Sighting.credit (update : Sighting) : Credit := (update.delta.packets, update.delta.bytes)

/-- What updates of one flow are worth to its row, given the key of the row if it is there:
an update inserts a row that is not, and others count for a row of their key. -/
def credited : Option FlowKey → Credit → List Sighting → Credit
  | _, credit, [] => credit
  | none, _, update :: updates => credited (some update.key) update.credit updates
  | some key, credit, update :: updates =>
    credited (some key) (if update.key = key then credit + update.credit else credit) updates

/-- A database, and for each row what was ingested for its key since it was inserted. -/
structure FlowLedger where
  db : TrafficDb
  since : UInt64 → Credit

namespace Operation

variable (flowId : FlowKey → UInt64) (db : TrafficDb)

/-- The updates of a flow that an operation ingests. -/
def updates (id : UInt64) : Operation → List Sighting
  | .ingest input => sightingsOf flowId id input.batch.flows
  | _ => []

/-- When they say that the flow was first seen. -/
def firstSeens (id : UInt64) : Operation → List ℤ
  | .ingest input => (sightingsOf flowId id input.batch.flows).map (Sighting.seenMs · input)
  | _ => []

/-- The credit of a row after an operation, from what it was before. -/
def credit (old : UInt64 → Credit) (op : Operation) (id : UInt64) : Credit :=
  credited ((db.tables.flows.find id).map FlowRow.key) (old id) (op.updates flowId id)

/-- The last update of each flow whose row stays continues the counters of the row. -/
def Continues : Operation → Prop
  | .ingest input => ∀ last ∈ finals flowId input.batch.flows, Stays input flowId db (flowId last.key) →
      last.kernelTotal =
        credited ((db.tables.flows.find (flowId last.key)).map FlowRow.key)
          ((db.tables.flows.find (flowId last.key)).elim 0 FlowRow.credit)
          (sightingsOf flowId (flowId last.key) input.batch.flows)
  | _ => True

end Operation

/-- The step of an operation, under a condition on it and the database before it. -/
def LedgerStep (flowId : FlowKey → UInt64) (cond : Operation → TrafficDb → Prop) (op : Operation)
    (s s' : FlowLedger) : Prop :=
  op.Succeeds flowId s.db s'.db ∧ cond op s.db ∧ s'.since = op.credit flowId s.db s.since

/-- The runs of successful operations that meet the condition, from an empty database. -/
def flowLedgers (flowId : FlowKey → UInt64) (cond : Operation → TrafficDb → Prop) :
    System FlowLedger where
  init s := s.db.tables = {}
  step s s' := ∃ op, LedgerStep flowId cond op s s'

/-! ## Credits -/

section Credits

variable {key : FlowKey} {credit : Credit} {updates : List Sighting}

theorem Sighting.credit_nonneg (update : Sighting) : 0 ≤ update.credit :=
  ⟨Int.natCast_nonneg _, Int.natCast_nonneg _⟩

/-- A row that is there only gains. -/
theorem le_credited : credit ≤ credited (some key) credit updates := by
  induction updates generalizing credit with
  | nil => exact le_rfl
  | cons update updates ih =>
    refine le_trans ?_ ih
    split
    · exact le_add_of_nonneg_right update.credit_nonneg
    · exact le_rfl

/-- A row that is not there starts with its first update. -/
theorem credited_none (h : updates ≠ []) (credit credit' : Credit) :
    credited none credit updates = credited none credit' updates := by
  cases updates with
  | nil => exact absurd rfl h
  | cons update updates => rfl

theorem credited_none_nonneg (h : updates ≠ []) : 0 ≤ credited none credit updates := by
  cases updates with
  | nil => exact absurd rfl h
  | cons update updates => exact update.credit_nonneg.trans le_credited

end Credits

/-! ## Steps -/

section Steps

variable {flowId : FlowKey → UInt64} {db db' : TrafficDb} {op : Operation} {id : UInt64}
  {row row' : FlowRow}

/-- The row of a flow that nothing was ingested for is the row that was there. -/
theorem find_stored_nil {input : IngestInput} {stored : TrafficDb} {touched : List UInt64}
    {event : StreamEvent} (h : Interval input flowId db stored touched event db')
    (hnil : sightingsOf flowId id input.batch.flows = [])
    (hrow : stored.tables.flows.find id = some row') :
    ∃ row, db.tables.flows.find id = some row ∧ row'.undomained = row.undomained := by
  have hfind := congrArg (fun t => t.find id) h.stores.rows
  simp only at hfind
  rw [Tables.find_undomained, hrow, find_storedFlows, hnil] at hfind
  change some row'.undomained = db.tables.undomained.find id at hfind
  rw [Tables.find_undomained] at hfind
  obtain ⟨row, hold, heq⟩ := Option.map_eq_some_iff.mp hfind.symm
  exact ⟨row, hold, heq.symm⟩

theorem find_enforced {settings : Settings} {nowInstant : Instant} {now : SystemTime}
    (hrow : (db.enforced settings nowInstant now).tables.flows.find id = some row') :
    db.tables.flows.find id = some row' := by
  unfold TrafficDb.enforced at hrow
  split at hrow
  · simp only [Tables.flows_enforced, Table.find_filter] at hrow
    exact (Option.filter_eq_some_iff.mp hrow).1
  · exact hrow

/-- Where a row after an operation comes from: it was there and nothing was ingested for its
flow, or it has the counters of the last update, and stays. -/
theorem Operation.Effect.origin (h : op.Effect flowId db db')
    (hrow : db'.tables.flows.find id = some row') :
    (op.updates flowId id = [] ∧ ∃ row, db.tables.flows.find id = some row ∧
      row'.undomained = row.undomained) ∨
    ∃ input, op = .ingest input ∧ ∃ last ∈ finals flowId input.batch.flows, flowId last.key = id ∧
      Stays input flowId db id ∧ row'.credit = last.kernelTotal := by
  cases op with
  | ingest input =>
    obtain ⟨stored, touched, event, hinterval⟩ := h
    rw [find_end hinterval] at hrow
    obtain ⟨hstored, hkept⟩ := Option.filter_eq_some_iff.mp hrow
    cases hupdates : sightingsOf flowId id input.batch.flows with
    | nil => exact Or.inl ⟨hupdates, find_stored_nil hinterval hupdates hstored⟩
    | cons update updates =>
      obtain ⟨hmem, hid⟩ := List.mem_filter.mp (hupdates ▸ List.mem_cons_self :
        update ∈ sightingsOf flowId id input.batch.flows)
      obtain ⟨last, hlast, hlastId⟩ : ∃ last ∈ finals flowId input.batch.flows,
        flowId last.key = flowId update.key := mem_finals_of_mem hmem
      have hlastId : flowId last.key = id := hlastId.trans (of_decide_eq_true hid)
      obtain ⟨row, hfind, -, hcredit⟩ := find_stored hinterval hlast
      rw [hlastId, hstored] at hfind
      obtain rfl := Option.some.inj hfind
      refine Or.inr ⟨input, rfl, last, hlast, hlastId, ?_, hcredit⟩
      intro hdue row hexpected
      rw [undomained_expected hinterval, Tables.find_undomained, hstored] at hexpected
      rw [← Option.some.inj hexpected, ← keptFlow_expected hinterval]
      simpa [hdue] using hkept
  | enforcePolicy settings nowInstant now =>
    obtain rfl := h
    exact Or.inl ⟨rfl, row', find_enforced hrow, rfl⟩
  | saveSettings settings nowInstant now =>
    obtain rfl := h
    exact Or.inl ⟨rfl, row', find_enforced hrow, rfl⟩
  | clearHistory =>
    have hcleared : db'.tables.flows = (db.tables.deleteFlows fun _ _ => true).flows := by
      rw [show db'.tables = _ from h]
      rfl
    rw [hcleared, Tables.flows_deleteFlows, Table.find_filter] at hrow
    exact absurd (Option.filter_eq_some_iff.mp hrow).2 (by simp)
  | restart =>
    rw [show db'.tables = _ from h] at hrow
    exact Or.inl ⟨rfl, row', hrow, rfl⟩

/-- The rows have the credit of the ledger. -/
def Exact (db : TrafficDb) (since : UInt64 → Credit) : Prop :=
  ∀ id row, db.tables.flows.find id = some row → row.credit = since id ∧ 0 ≤ row.credit

variable {since : UInt64 → Credit}

theorem Exact.step (h : Exact db since) (hop : op.Effect flowId db db')
    (hcond : op.Continues flowId db) : Exact db' (op.credit flowId db since) := by
  intro id row' hrow'
  rcases hop.origin hrow' with ⟨hnil, row, hrow, heq⟩ | ⟨input, rfl, last, hlast, rfl, hstays, hcredit⟩
  · have hcredit : row'.undomained.credit = row.undomained.credit := congrArg FlowRow.credit heq
    change row'.credit = row.credit at hcredit
    unfold Operation.credit
    rw [hnil, hcredit, hrow]
    exact h id row hrow
  · have htotal := hcond last hlast hstays
    rw [hcredit, htotal]
    have hne : sightingsOf flowId (flowId last.key) input.batch.flows ≠ [] := by
      obtain ⟨earlier, hearlier⟩ := sightingsOf_eq_append hlast
      rw [hearlier]
      simp
    change credited _ _ _ = credited _ (since (flowId last.key)) (sightingsOf flowId _ _) ∧ _
    cases hrow : db.tables.flows.find (flowId last.key) with
    | none => exact ⟨credited_none hne _ _, credited_none_nonneg hne⟩
    | some row =>
      obtain ⟨hexact, hnonneg⟩ := h _ row hrow
      rw [Option.elim_some, hexact]
      exact ⟨rfl, (hexact ▸ hnonneg).trans le_credited⟩

/-- What a step does to the rows that are there before and after, and to groups of them. -/
structure Grows (db db' : TrafficDb) (op : Operation) (flowId : FlowKey → UInt64) : Prop where
  counters : ∀ id row row', db.tables.flows.find id = some row →
    db'.tables.flows.find id = some row' → row.credit ≤ row'.credit
  firstSeen : ∀ id row row', db.tables.flows.find id = some row →
    db'.tables.flows.find id = some row' →
      row'.firstSeenMs = (op.firstSeens flowId id).foldl min row.firstSeenMs
  /-- The rows of an endpoint, a domain or an application, when none left the group. -/
  groups : ∀ member : FlowRow → Bool,
    (∀ id row, db.tables.flows.find id = some row → member row = true →
      ∃ row', db'.tables.flows.find id = some row' ∧ member row' = true) →
    (db.tables.flows.total fun _ row => if member row then row.credit else 0) ≤
      db'.tables.flows.total fun _ row => if member row then row.credit else 0

theorem firstSeenMs_storeAll {input : IngestInput} {interfaces : HashMap UInt32 String}
    {updates : List Sighting}
    (h : storeAll input interfaces (some row) updates = some row') :
    row'.firstSeenMs = (updates.map (Sighting.seenMs · input)).foldl min row.firstSeenMs := by
  induction updates generalizing row with
  | nil => rw [Option.some.inj h]; rfl
  | cons update updates ih =>
    rw [List.map_cons, List.foldl_cons, ← Sighting.firstSeenMs_storeIn update input interfaces row]
    exact ih h

theorem firstSeenMs_effect (hop : op.Effect flowId db db')
    (hrow : db.tables.flows.find id = some row) (hrow' : db'.tables.flows.find id = some row') :
    row'.firstSeenMs = (op.firstSeens flowId id).foldl min row.firstSeenMs := by
  rcases hop.origin hrow' with ⟨hnil, old, hold, heq⟩ | ⟨input, rfl, -⟩
  · have hsame : row'.undomained.firstSeenMs = old.undomained.firstSeenMs :=
      congrArg FlowRow.firstSeenMs heq
    obtain rfl := Option.some.inj (hrow.symm.trans hold)
    have hfirst : op.firstSeens flowId id = [] := by
      cases op with
      | ingest input => exact congrArg (List.map (Sighting.seenMs · input)) hnil
      | _ => rfl
    rw [hfirst]
    exact hsame
  · obtain ⟨stored, touched, event, hinterval⟩ := hop
    rw [find_end hinterval] at hrow'
    have hstored := (Option.filter_eq_some_iff.mp hrow').1
    have hfind := congrArg (fun t => t.find id) hinterval.stores.rows
    simp only at hfind
    rw [Tables.find_undomained, hstored, find_storedFlows] at hfind
    change _ = storeAll _ _ (db.tables.undomained.find id) _ at hfind
    rw [Tables.find_undomained, hrow] at hfind
    have hfirst : row'.undomained.firstSeenMs = _ :=
      firstSeenMs_storeAll hfind.symm
    exact hfirst

theorem Exact.grows (h : Exact db since) (hop : op.Effect flowId db db')
    (hcond : op.Continues flowId db) : Grows db db' op flowId := by
  have hcounters : ∀ id row row', db.tables.flows.find id = some row →
      db'.tables.flows.find id = some row' → row.credit ≤ row'.credit := by
    intro id row row' hrow hrow'
    rw [(h.step hop hcond id row' hrow').1, (h id row hrow).1]
    unfold Operation.credit
    rw [hrow]
    exact le_credited
  refine ⟨hcounters, fun id row row' => firstSeenMs_effect hop, ?_⟩
  · intro member hmember
    have htotal : ∀ t : Table UInt64 FlowRow,
        (t.filter fun _ row => member row).total (fun _ row => row.credit) =
          t.total fun _ row => if member row then row.credit else 0 := fun _ => Table.total_filter
    rw [← htotal, ← htotal]
    apply Table.total_le_total
    · intro id row hmem
      rw [Table.find_filter] at hmem
      obtain ⟨hrow, hin⟩ := Option.filter_eq_some_iff.mp hmem
      obtain ⟨row', hrow', hin'⟩ := hmember id row hrow hin
      refine ⟨row', ?_, hcounters id row row' hrow hrow'⟩
      rw [Table.find_filter, hrow', Option.filter_some, if_pos hin']
    · intro id row' hmem
      rw [Table.find_filter] at hmem
      exact (h.step hop hcond id row' (Option.filter_eq_some_iff.mp hmem).1).2

end Steps

/-! ## Runs -/

theorem flowLedgers_ingest {flowId : FlowKey → UInt64} {cond : Operation → TrafficDb → Prop}
    {input : IngestInput} {event : StreamEvent} {c c' : Conn TrafficDb} {since : UInt64 → Credit}
    (hr : (flowLedgers flowId cond).Reachable ⟨c.store, since⟩)
    (h : tryIngest flowId input c = (.ok event, c')) (hcond : cond (.ingest input) c.store) :
    (flowLedgers flowId cond).Reachable
      ⟨c'.store, (Operation.ingest input).credit flowId c.store since⟩ :=
  .step hr ⟨.ingest input, .ingest h, hcond, rfl⟩

/-- In a run whose operations all continue the counters, the rows are the sums of what was
ingested for them, and a further such operation never takes anything away from them. -/
theorem flow_totals_exact {flowId : FlowKey → UInt64} {s : FlowLedger}
    (hr : (flowLedgers flowId fun op db => op.Continues flowId db).Reachable s) :
    (∀ id row, s.db.tables.flows.find id = some row → row.credit = s.since id) ∧
      ∀ op s', LedgerStep flowId (fun op db => op.Continues flowId db) op s s' →
        Grows s.db s'.db op flowId := by
  have hexact : Exact s.db s.since := by
    refine hr.invariant (P := fun s => Exact s.db s.since) ?_ ?_
    · intro s hs id row hrow
      rw [show s.db.tables = {} from hs] at hrow
      simp [Table.find_empty] at hrow
    · rintro s s' hs ⟨op, hop, hcond, hsince⟩
      rw [hsince]
      exact hs.step hop.effect hcond
  constructor
  · exact fun id row hrow => (hexact id row hrow).1
  · rintro op s' ⟨hop, hcond, -⟩
    exact hexact.grows hop.effect hcond

/-- One update of one flow, stored in an empty database. -/
theorem flow_totals_exact_oneUpdate : ∃ s : FlowLedger,
    (flowLedgers (fun _ => 7) fun op db => op.Continues (fun _ => 7) db).Reachable s ∧
      ∀ id row, s.db.tables.flows.find id = some row → row.credit = s.since id := by
  obtain ⟨event, c', h⟩ := Storage.exists_of_isOk (x := tryIngest (fun _ => 7) oneUpdate)
    (c := ⟨{}, []⟩) (by decide +kernel)
  have hcontinues : (Operation.ingest oneUpdate).Continues (fun _ => 7) {} := by
    intro last hlast _
    have hfinals : finals (fun _ => 7) oneUpdate.batch.flows =
      [lanUpdate ⟨3, 300⟩ ⟨3, 300⟩ .active] := rfl
    rw [hfinals] at hlast
    obtain rfl := List.mem_singleton.mp hlast
    decide +kernel
  have h0 : (flowLedgers (fun _ => 7) fun op db => op.Continues (fun _ => 7) db).Reachable
      ⟨{}, fun _ => 0⟩ := .init rfl
  have hr := flowLedgers_ingest (c := ⟨{}, []⟩) h0 h hcontinues
  exact ⟨_, hr, (flow_totals_exact hr).1⟩

/-- Two polls between which the entry of a flow was evicted and created again. -/
def recreatedPolls : List FlowUpdate × List FlowUpdate :=
  let (first, t) := ({ FlowTracker.new (fromSecs 30) with
    merged := [{ key := lanFlow, total := ⟨1, 100⟩, firstSeenNs := 1, lastSeenNs := 1 }] }).reconcile 5
  let (second, _) := ({ t with
    merged := [{ key := lanFlow, total := ⟨1, 40⟩, firstSeenNs := 2, lastSeenNs := 2 }] }).reconcile 6
  (first, second)

def polled (updates : List FlowUpdate) : IngestInput :=
  lanInterval {} (updates.map fun update =>
    { update with resolved := none, profile := { scope := .publicScope } })

/-- The counters of the new entry replace what the row had of the old one. -/
theorem flow_totals_not_exact : ¬ ∀ s : FlowLedger,
    (flowLedgers (fun _ => 7) fun op _ => ∃ updates, op = .ingest (polled updates) ∧
      (updates = recreatedPolls.1 ∨ updates = recreatedPolls.2)).Reachable s →
    ∀ id row, s.db.tables.flows.find id = some row → row.credit = s.since id := by
  intro h
  obtain ⟨_, c₁, h₁⟩ := Storage.exists_of_isOk (c := ⟨{}, []⟩)
    (x := tryIngest (fun _ => 7) (polled recreatedPolls.1)) (by decide +kernel)
  have hc₁ : c₁ = (tryIngest (fun _ => 7) (polled recreatedPolls.1) ⟨{}, []⟩).2 := by rw [h₁]
  obtain ⟨_, c₂, h₂⟩ := Storage.exists_of_isOk (c := c₁)
    (x := tryIngest (fun _ => 7) (polled recreatedPolls.2)) (by rw [hc₁]; decide +kernel)
  have h0 : (flowLedgers (fun _ => 7) fun op _ => ∃ updates, op = .ingest (polled updates) ∧
      (updates = recreatedPolls.1 ∨ updates = recreatedPolls.2)).Reachable ⟨{}, fun _ => 0⟩ :=
    .init rfl
  have hr₁ := flowLedgers_ingest (c := ⟨{}, []⟩) h0 h₁ ⟨_, rfl, Or.inl rfl⟩
  have hr₂ := flowLedgers_ingest hr₁ h₂ ⟨_, rfl, Or.inr rfl⟩
  have hrow : (c₂.store.tables.flows.find 7).map FlowRow.credit = some (1, 40) := by
    have hc₂ : c₂ = (tryIngest (fun _ => 7) (polled recreatedPolls.2) c₁).2 := by rw [h₂]
    rw [hc₂, hc₁]
    decide +kernel
  obtain ⟨row, hfind, hcredit⟩ := Option.map_eq_some_iff.mp hrow
  have hsum : row.credit = (Operation.ingest (polled recreatedPolls.2)).credit _ _ _ 7 :=
    h _ hr₂ 7 row hfind
  rw [hcredit, hc₁] at hsum
  exact absurd hsum (by decide +kernel)

end ZimaScope
