import ZimaScope.Db.Amounts
import ZimaScope.Db.Interval

/-! # The deltas of an interval

A batch may hold several updates of one flow; the map of deltas keeps the last
one. What reaches the buckets is the deltas of the last updates whose flows are
still stored.
-/

namespace ZimaScope

/-- What the map of deltas keeps of an update. -/
def Sighting.flowDelta (update : Sighting) : TrafficDb.FlowDelta :=
  ⟨update.key.direction, update.delta, update.key.ifindex⟩

namespace TrafficDb

section Finals

variable (flowId : FlowKey → UInt64)

/-- The last update of each flow. -/
def finals : List Sighting → List Sighting
  | [] => []
  | update :: later =>
    if later.any fun other => flowId other.key = flowId update.key then finals later
    else update :: finals later

variable {flowId} {flows later : List Sighting} {update other : Sighting}

theorem finals_cons_of_exists (h : ∃ other ∈ later, flowId other.key = flowId update.key) :
    finals flowId (update :: later) = finals flowId later :=
  if_pos (List.any_eq_true.mpr (by simpa using h))

theorem finals_cons_of_forall (h : ∀ other ∈ later, flowId other.key ≠ flowId update.key) :
    finals flowId (update :: later) = update :: finals flowId later :=
  if_neg (by simpa using h)

variable (flowId update later) in
/-- Either a later update of the same flow takes over, or this one is the last. -/
theorem exists_or_forall : (∃ other ∈ later, flowId other.key = flowId update.key) ∨
    ∀ other ∈ later, flowId other.key ≠ flowId update.key := by
  by_cases h : ∃ other ∈ later, flowId other.key = flowId update.key
  · exact Or.inl h
  · exact Or.inr fun other hother heq => h ⟨other, hother, heq⟩

theorem finals_sublist : (finals flowId flows).Sublist flows := by
  induction flows with
  | nil => exact List.Sublist.slnil
  | cons update later ih =>
    rcases exists_or_forall flowId later update with h | h
    · rw [finals_cons_of_exists h]
      exact ih.cons _
    · rw [finals_cons_of_forall h]
      exact ih.cons_cons _

theorem mem_finals_of_mem (h : update ∈ flows) :
    ∃ last ∈ finals flowId flows, flowId last.key = flowId update.key := by
  induction flows generalizing update with
  | nil => simp at h
  | cons first later ih =>
    rcases exists_or_forall flowId later first with ⟨other, hother, heq⟩ | hfirst
    · rw [finals_cons_of_exists ⟨other, hother, heq⟩]
      rcases List.mem_cons.mp h with rfl | h
      · obtain ⟨last, hlast, hlasteq⟩ := ih hother
        exact ⟨last, hlast, hlasteq.trans heq⟩
      · exact ih h
    · rw [finals_cons_of_forall hfirst]
      rcases List.mem_cons.mp h with rfl | h
      · exact ⟨update, List.mem_cons_self, rfl⟩
      · obtain ⟨last, hlast, heq⟩ := ih h
        exact ⟨last, List.mem_cons_of_mem _ hlast, heq⟩

theorem finals_nodup : ((finals flowId flows).map fun update => flowId update.key).Nodup := by
  induction flows with
  | nil => exact List.nodup_nil
  | cons update later ih =>
    rcases exists_or_forall flowId later update with h | h
    · rw [finals_cons_of_exists h]
      exact ih
    · rw [finals_cons_of_forall h, List.map_cons]
      refine List.nodup_cons.mpr ⟨fun hmem => ?_, ih⟩
      obtain ⟨other, hother, heq⟩ := List.mem_map.mp hmem
      exact h other (finals_sublist.mem hother) heq

theorem find?_finals_of_mem (h : update ∈ finals flowId flows) :
    ((finals flowId flows).find? fun other => flowId other.key = flowId update.key) =
      some update := by
  have hsome : ((finals flowId flows).find? fun other =>
      flowId other.key = flowId update.key).isSome := List.find?_isSome.mpr ⟨update, h, by simp⟩
  obtain ⟨found, hfound⟩ := Option.isSome_iff_exists.mp hsome
  have hid : flowId found.key = flowId update.key := by simpa using List.find?_some hfound
  rw [hfound, List.inj_on_of_nodup_map finals_nodup (List.mem_of_find?_eq_some hfound) h hid]

theorem lookup_foldl {deltas : HashMap UInt64 FlowDelta} {id : UInt64} :
    AList.lookup id (flows.foldl (fun deltas update => deltas.insert (flowId update.key)
      ⟨update.key.direction, update.delta, update.key.ifindex⟩) deltas) =
      (((finals flowId flows).find? fun update => flowId update.key = id).map
        Sighting.flowDelta).or (AList.lookup id deltas) := by
  induction flows generalizing deltas with
  | nil => rfl
  | cons update later ih =>
    rw [List.foldl_cons, ih]
    by_cases hid : flowId update.key = id
    · subst hid
      rw [AList.lookup_insert]
      rcases exists_or_forall flowId later update with h | h
      · rw [finals_cons_of_exists h]
        obtain ⟨other, hother, heq⟩ := h
        obtain ⟨last, hlast, hlasteq⟩ : ∃ last ∈ finals flowId later,
          flowId last.key = flowId other.key := mem_finals_of_mem hother
        have hfind := find?_finals_of_mem hlast
        rw [hlasteq, heq] at hfind
        rw [hfind]
        rfl
      · rw [finals_cons_of_forall h, List.find?_cons_of_pos (by simp)]
        have hnone : ((finals flowId later).find? fun other =>
            flowId other.key = flowId update.key) = none := by
          refine List.find?_eq_none.mpr fun other hother heq => ?_
          exact h other (finals_sublist.mem hother) (of_decide_eq_true heq)
        rw [hnone]
        rfl
    · rw [AList.lookup_insert_ne (Ne.symm hid)]
      rcases exists_or_forall flowId later update with h | h
      · rw [finals_cons_of_exists h]
      · rw [finals_cons_of_forall h, List.find?_cons_of_neg (by simpa using hid)]

/-- The map of deltas holds the last ones. -/
theorem lookup_flowDeltas {id : UInt64} : AList.lookup id (flowDeltas flowId flows) =
    ((finals flowId flows).find? fun update => flowId update.key = id).map Sighting.flowDelta :=
  lookup_foldl.trans (Option.or_none ..)

theorem lookup_flowDeltas_of_mem (h : update ∈ finals flowId flows) :
    AList.lookup (flowId update.key) (flowDeltas flowId flows) = some update.flowDelta := by
  rw [lookup_flowDeltas, find?_finals_of_mem h]
  rfl

theorem exists_of_lookup_flowDeltas {id : UInt64} {d : FlowDelta}
    (h : AList.lookup id (flowDeltas flowId flows) = some d) :
    ∃ update ∈ finals flowId flows, flowId update.key = id ∧ update.flowDelta = d := by
  rw [lookup_flowDeltas] at h
  obtain ⟨update, hfind, rfl⟩ := Option.map_eq_some_iff.mp h
  exact ⟨update, List.mem_of_find?_eq_some hfind, by simpa using List.find?_some hfind, rfl⟩

end Finals

/-! ## Several updates of one flow -/

section Once

variable (flowId : FlowKey → UInt64) (flows : List Sighting)

/-- Only the last update of a flow has a delta. -/
def Once : Prop := flows.Pairwise fun earlier later =>
  flowId earlier.key = flowId later.key → earlier.flowDelta.moved = false

variable {flowId flows} {update : Sighting} {f : ℤ → Prop} [DecidablePred f]

theorem mem_finals_of_once (h : Once flowId flows) (hmem : update ∈ flows)
    (hmoved : update.flowDelta.moved = true) : update ∈ finals flowId flows := by
  induction flows with
  | nil => simp at hmem
  | cons first later ih =>
    obtain ⟨hfirst, hlater⟩ := List.pairwise_cons.mp h
    rcases exists_or_forall flowId later first with hex | hall
    · rw [finals_cons_of_exists hex]
      rcases List.mem_cons.mp hmem with rfl | hmem
      · obtain ⟨other, hother, heq⟩ := hex
        rw [hfirst other hother heq.symm] at hmoved
        simp at hmoved
      · exact ih hlater hmem
    · rw [finals_cons_of_forall hall]
      rcases List.mem_cons.mp hmem with rfl | hmem
      · exact List.mem_cons_self
      · exact List.mem_cons_of_mem _ (ih hlater hmem)

theorem movedOn_finals_le :
    movedOn f ((finals flowId flows).map Sighting.flowDelta) ≤
      movedOn f (flows.map Sighting.flowDelta) :=
  movedOn_sublist (finals_sublist.map _)

theorem movedOn_cons {d : FlowDelta} {deltas : List FlowDelta} :
    movedOn f (d :: deltas) = (if f d.ifindex then d.counters else 0) + movedOn f deltas := rfl

theorem movedOn_finals (h : Once flowId flows) :
    movedOn f ((finals flowId flows).map Sighting.flowDelta) =
      movedOn f (flows.map Sighting.flowDelta) := by
  induction flows with
  | nil => rfl
  | cons first later ih =>
    obtain ⟨hfirst, hlater⟩ := List.pairwise_cons.mp h
    rw [List.map_cons, movedOn_cons]
    rcases exists_or_forall flowId later first with hex | hall
    · obtain ⟨other, hother, heq⟩ := hex
      have hzero : first.flowDelta.counters = 0 :=
        FlowDelta.counters_eq_zero.mpr (hfirst other hother heq.symm)
      rw [finals_cons_of_exists ⟨other, hother, heq⟩, ih hlater, hzero, ite_self, zero_add]
    · rw [finals_cons_of_forall hall, List.map_cons, movedOn_cons, ih hlater]

/-- What the map of deltas loses is missing from some interface. -/
theorem once_of_movedOn_finals (h : ∀ ifindex,
    movedOn (· = ifindex) ((finals flowId flows).map Sighting.flowDelta) =
      movedOn (· = ifindex) (flows.map Sighting.flowDelta)) : Once flowId flows := by
  induction flows with
  | nil => exact List.Pairwise.nil
  | cons first later ih =>
    rcases exists_or_forall flowId later first with hex | hall
    · rw [finals_cons_of_exists hex] at h
      have hle : ∀ ifindex, (if first.flowDelta.ifindex = ifindex then first.flowDelta.counters else 0) +
          movedOn (· = ifindex) (later.map Sighting.flowDelta) ≤
            movedOn (· = ifindex) (later.map Sighting.flowDelta) := by
        intro ifindex
        have hi := h ifindex
        rw [List.map_cons, movedOn_cons] at hi
        rw [← hi]
        exact movedOn_finals_le
      have hzero : first.flowDelta.counters = 0 := by
        have hown := hle first.flowDelta.ifindex
        rw [if_pos rfl] at hown
        exact le_antisymm (by simpa using hown) first.flowDelta.counters_nonneg
      refine List.pairwise_cons.mpr ⟨fun _ _ _ => FlowDelta.counters_eq_zero.mp hzero, ih fun ifindex => ?_⟩
      rw [h ifindex, List.map_cons, movedOn_cons, hzero, ite_self, zero_add]
    · rw [finals_cons_of_forall hall] at h
      refine List.pairwise_cons.mpr ⟨fun other hother heq => absurd heq.symm (hall other hother),
        ih fun ifindex => ?_⟩
      have hi := h ifindex
      rw [List.map_cons, List.map_cons, movedOn_cons, movedOn_cons] at hi
      exact add_left_cancel hi

/-- The last update of a flow is the last that its row goes through. -/
theorem sightingsOf_eq_append (h : update ∈ finals flowId flows) :
    ∃ earlier, sightingsOf flowId (flowId update.key) flows = earlier ++ [update] := by
  induction flows with
  | nil => simp [finals] at h
  | cons first later ih =>
    have hlater : update ∈ finals flowId later → ∃ earlier,
        sightingsOf flowId (flowId update.key) (first :: later) = earlier ++ [update] := by
      intro h
      obtain ⟨earlier, hearlier⟩ := ih h
      unfold sightingsOf at hearlier ⊢
      rw [List.filter_cons, hearlier]
      split
      · exact ⟨first :: earlier, rfl⟩
      · exact ⟨earlier, rfl⟩
    rcases exists_or_forall flowId later first with hex | hall
    · rw [finals_cons_of_exists hex] at h
      exact hlater h
    · rw [finals_cons_of_forall hall] at h
      rcases List.mem_cons.mp h with rfl | h
      · refine ⟨[], ?_⟩
        have hnil : sightingsOf flowId (flowId update.key) later = [] :=
          List.filter_eq_nil_iff.mpr fun other hother => by simpa using hall other hother
        unfold sightingsOf at hnil ⊢
        rw [List.filter_cons_of_pos (by simp), hnil]
        rfl
      · exact hlater h

end Once

/-! ## Moves -/

theorem filterMap_perm {α β : Type} {l l' : List α} {g : α → Option β} (hl : l.Nodup)
    (hl' : l'.Nodup) (h : ∀ a, (g a).isSome → (a ∈ l ↔ a ∈ l')) :
    (l.filterMap g).Perm (l'.filterMap g) := by
  have hfilter : ∀ l : List α, l.filterMap g = (l.filter fun a => (g a).isSome).filterMap g := by
    intro l
    rw [List.filterMap_filter]
    congr 1
    funext a
    cases g a <;> rfl
  rw [hfilter l, hfilter l']
  apply List.Perm.filterMap
  apply (List.perm_ext_iff_of_nodup (hl.filter _) (hl'.filter _)).mpr
  intro a
  rw [List.mem_filter, List.mem_filter]
  exact and_congr_left (h a)

section Moves

variable {input : IngestInput} {flowId : FlowKey → UInt64} {stored : TrafficDb}
  {touched : List UInt64}

variable (input flowId stored) in
/-- The last update of a flow that moved, if the flow is still stored. -/
def arrives (update : Sighting) : Bool :=
  update.flowDelta.moved && ((keptOf input stored).tables.flows.find (flowId update.key)).isSome

theorem readIds_nodup : (readIds input flowId touched).Nodup := (List.nodup_dedup _).filter _

theorem mem_readIds {id : UInt64} : id ∈ readIds input flowId touched ↔ id ∈ touched ∧
    (flowMoved flowId input.batch.flows id = true ∨ id ∈ endedIds flowId input.batch.flows) := by
  unfold readIds
  rw [List.mem_filter, List.mem_dedup, List.mem_insertionSort, Bool.or_eq_true, decide_eq_true_iff]

theorem movesOf_perm (h : ∀ update ∈ input.batch.flows, flowId update.key ∈ touched) :
    ((movesOf input flowId touched stored).map Prod.snd).Perm
      (((finals flowId input.batch.flows).filter (arrives input flowId stored)).map
        Sighting.flowDelta) := by
  let g : UInt64 → Option FlowDelta := fun id =>
    ((keptOf input stored).tables.flows.find id).bind fun _ =>
      (AList.lookup id (flowDeltas flowId input.batch.flows)).filter FlowDelta.moved
  have hmoves : (movesOf input flowId touched stored).map Prod.snd =
      (readIds input flowId touched).filterMap g := by
    unfold movesOf contributions updatedOf
    rw [List.filterMap_filterMap, List.map_filterMap]
    congr 1
    funext id
    unfold recordOf moveOf
    simp only [g]
    cases (keptOf input stored).tables.flows.find id with
    | none => rfl
    | some row =>
      simp only [Option.map_some, Option.bind_some, Option.map_map]
      cases (AList.lookup id (flowDeltas flowId input.batch.flows)).filter FlowDelta.moved <;> rfl
  have hfinals : ((finals flowId input.batch.flows).filter (arrives input flowId stored)).map
      Sighting.flowDelta =
        ((finals flowId input.batch.flows).map fun update => flowId update.key).filterMap g := by
    rw [List.filterMap_map, ← List.filterMap_eq_map, List.filterMap_filter]
    apply List.filterMap_congr
    intro update hupdate
    simp only [g, Function.comp_apply, arrives, lookup_flowDeltas_of_mem hupdate]
    rcases Option.eq_none_or_eq_some ((keptOf input stored).tables.flows.find (flowId update.key))
      with hrow | ⟨row, hrow⟩
    · simp [hrow]
    · simp [hrow, Option.filter_some]
  rw [hmoves, hfinals]
  apply filterMap_perm readIds_nodup finals_nodup
  intro id hid
  obtain ⟨d, hd⟩ := Option.isSome_iff_exists.mp hid
  obtain ⟨row, -, hlookup⟩ := Option.bind_eq_some_iff.mp hd
  obtain ⟨hlookup, hmoved⟩ := Option.filter_eq_some_iff.mp hlookup
  obtain ⟨update, hupdate, rfl, -⟩ := exists_of_lookup_flowDeltas hlookup
  have hflow : flowMoved flowId input.batch.flows (flowId update.key) = true := by
    unfold flowMoved
    rw [hlookup]
    exact hmoved
  constructor
  · exact fun _ => List.mem_map_of_mem hupdate
  · exact fun _ => mem_readIds.mpr ⟨h update (finals_sublist.mem hupdate), Or.inl hflow⟩

theorem movedOn_movesOf_le (h : ∀ update ∈ input.batch.flows, flowId update.key ∈ touched)
    {f : ℤ → Prop} [DecidablePred f] : movedOn f ((movesOf input flowId touched stored).map Prod.snd) ≤
      movedOn f (input.batch.flows.map Sighting.flowDelta) := by
  rw [movedOn_perm (movesOf_perm h)]
  exact movedOn_sublist ((List.filter_sublist.trans finals_sublist).map _)

theorem fits_movesOf (h : ∀ update ∈ input.batch.flows, flowId update.key ∈ touched)
    (hfits : Fits (input.batch.flows.map Sighting.flowDelta)) :
    Fits ((movesOf input flowId touched stored).map Prod.snd) :=
  hfits.of_le fun _ => movedOn_movesOf_le h

variable {db db' : TrafficDb} {event : StreamEvent}

/-- The row of a flow is that of its last update. -/
theorem find_stored (h : Interval input flowId db stored touched event db') {last : Sighting}
    (hlast : last ∈ finals flowId input.batch.flows) :
    ∃ row, stored.tables.flows.find (flowId last.key) = some row ∧
      row.state = last.state ∧ row.credit = last.kernelTotal := by
  obtain ⟨earlier, hearlier⟩ := sightingsOf_eq_append hlast
  have hrow := congrArg (fun t => t.find (flowId last.key)) h.stores.rows
  simp only at hrow
  rw [Tables.find_undomained, find_storedFlows, hearlier] at hrow
  unfold storeAll at hrow
  rw [List.foldl_append, List.foldl_cons, List.foldl_nil] at hrow
  obtain ⟨row, hfind, heq⟩ := Option.map_eq_some_iff.mp hrow
  have hstored : row.undomained.state = last.state ∧ row.undomained.credit = last.kernelTotal := by
    rw [heq]
    exact ⟨Sighting.state_storeIn .., Sighting.credit_storeIn ..⟩
  exact ⟨row, hfind, hstored⟩

end Moves

end TrafficDb

end ZimaScope
