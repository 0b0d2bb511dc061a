import ZimaScope.Api.StreamFilter
import ZimaScope.Db.Records

/-! # Ticks

The payload a subscriber gets of an interval: of the flows that its filter
accepts, full records and counter patches.
-/

namespace ZimaScope

/-- Counter-only update for one flow on the live stream. -/
structure FlowPatchDto where
  id : UInt64
  /-- The address alone, for views that match by it. -/
  remote : IpAddr
  packets : ℕ
  bytes : ℕ
  lastSeen : ℤ
  inboundBps : ℕ
  outboundBps : ℕ
  deriving DecidableEq

def FlowPatchDto.ofFlow (flow : FlowDto) : FlowPatchDto where
  id := flow.id
  remote := flow.remote.address
  packets := flow.packets
  bytes := flow.bytes
  lastSeen := flow.lastSeen
  inboundBps := flow.inboundBps
  outboundBps := flow.outboundBps

/-- The patch of a record that a client holds. -/
def FlowPatchDto.merge (patch : FlowPatchDto) (flow : FlowDto) : FlowDto :=
  { flow with
    packets := patch.packets
    bytes := patch.bytes
    lastSeen := patch.lastSeen
    inboundBps := patch.inboundBps
    outboundBps := patch.outboundBps }

/-- The payload of one interval, less its summaries. -/
structure TickDto where
  sequence : ℕ
  collectedAt : ℤ
  inbound : TrafficCounters
  outbound : TrafficCounters
  flows : List FlowDto
  flowUpdates : List FlowPatchDto
  observations : List DomainObservationDto
  overview : FlowStats

def StreamFilter.matchesDomain (f : StreamFilter) (domain : String) : Bool :=
  f.domain.all fun candidate => candidate = domain

/-- Projects the interval into a filtered payload. -/
def LiveEvent.tick (event : LiveEvent) (filter : StreamFilter) : TickDto :=
  let matched := event.flows.filter filter.matches
  { sequence := event.sequence
    collectedAt := unixMillis event.collectedAt
    inbound := event.inbound
    outbound := event.outbound
    flows := matched.filter fun flow => flow.id ∉ event.patchedFlows
    flowUpdates := (matched.filter fun flow => flow.id ∈ event.patchedFlows).map FlowPatchDto.ofFlow
    observations := event.observations.filter fun o => filter.matchesDomain o.domain
    overview := event.overview }

/-- The filter of a subscriber that gives no parameters. -/
def StreamFilter.all : StreamFilter := StreamQuery.filter {}

@[simp] theorem StreamFilter.matches_all (flow : FlowDto) : StreamFilter.all.matches flow = true := rfl

theorem StreamFilter.filter_matches_all {flows : List FlowDto} :
    flows.filter StreamFilter.all.matches = flows :=
  List.filter_eq_self.mpr fun flow _ => matches_all flow

/-! ## What a tick is made of -/

section Tick

variable {moved : UInt64 → Bool} {details : HashMap UInt64 String} {flows : List FlowDto}
  {p : TickProgress}

/-- The flows of a tick, and the signatures after it. -/
structure Ticked (moved : UInt64 → Bool) (details : HashMap UInt64 String) (flows : List FlowDto)
    (p : TickProgress) : Prop where
  taken : p.flows.Sublist flows
  patched : ∀ id ∈ p.patched, ∃ flow ∈ flows, flow.id = id ∧ moved id = true ∧
    flow.state = .active ∧ AList.lookup id details = some (flowDetailSignature flow)
  signatures : ∀ id signature, AList.lookup id p.details = some signature →
    (∃ flow ∈ p.flows, flow.id = id ∧ flow.state = .active) ∨
      AList.lookup id details = some signature ∧ ∀ flow ∈ p.flows, flow.id ≠ id

theorem FlowStateDto.eq_active {state : FlowStateDto} (h : state ≠ .ended) : state = .active := by
  cases state
  · rfl
  · exact absurd rfl h

theorem ticked_foldl (hnodup : (flows.map FlowDto.id).Nodup) :
    Ticked moved details flows (flows.foldl (tickFlow moved) { details }) := by
  induction flows using List.reverseRecOn with
  | nil => exact ⟨List.Sublist.refl _, by simp, fun id signature h => Or.inr ⟨h, by simp⟩⟩
  | append_singleton done flow ih =>
    rw [List.map_append, List.nodup_append] at hnodup
    obtain ⟨hdone, -, hdisjoint⟩ := hnodup
    have hnew : ∀ other ∈ done, other.id ≠ flow.id := fun other hother =>
      hdisjoint _ (List.mem_map_of_mem hother) _ (by simp)
    obtain ⟨hflows, hpatched, hdetails⟩ := ih hdone
    rw [List.foldl_append, List.foldl_cons, List.foldl_nil]
    generalize done.foldl (tickFlow moved) { details } = p at *
    have hearlier : ∀ id ∈ p.patched, ∃ other ∈ done ++ [flow], other.id = id ∧ moved id = true ∧
        other.state = .active ∧ AList.lookup id details = some (flowDetailSignature other) := by
      intro id hid
      obtain ⟨other, hother, hrest⟩ := hpatched id hid
      exact ⟨other, List.mem_append_left _ hother, hrest⟩
    have herased : ∀ id signature, AList.lookup id (p.details.erase flow.id) = some signature →
        id ≠ flow.id ∧ AList.lookup id p.details = some signature := by
      intro id signature h
      by_cases hid : id = flow.id
      · subst hid
        simp at h
      · rw [AList.lookup_erase_ne hid] at h
        exact ⟨hid, h⟩
    unfold tickFlow
    split
    · constructor
      · exact hflows.trans (List.sublist_append_left _ _)
      · exact hearlier
      · intro id signature h
        exact hdetails id signature (herased id signature h).2
    · split
      · constructor
        · exact hflows.append (List.Sublist.refl _)
        · exact hearlier
        · intro id signature h
          obtain ⟨hid, hold⟩ := herased id signature h
          rcases hdetails id signature hold with ⟨other, hother, hrest⟩ | ⟨hfirst, hnone⟩
          · exact Or.inl ⟨other, List.mem_append_left _ hother, hrest⟩
          · refine Or.inr ⟨hfirst, fun other hother => ?_⟩
            rcases List.mem_append.mp hother with hother | hother
            · exact hnone other hother
            · obtain rfl := List.mem_singleton.mp hother
              exact Ne.symm hid
      · next hmoves hended =>
        have hmoved : moved flow.id = true := by
          by_contra hnot
          exact hmoves (by simp [Bool.eq_false_iff.mpr hnot, hended])
        have hactive := FlowStateDto.eq_active hended
        constructor
        · exact hflows.append (List.Sublist.refl _)
        · intro id hid
          simp only at hid
          split at hid
          · next hsent =>
            rcases List.mem_insert_iff.mp hid with rfl | hid
            · refine ⟨flow, by simp, rfl, hmoved, hactive, ?_⟩
              rcases hdetails _ _ hsent with ⟨other, hother, heq, -⟩ | ⟨hfirst, -⟩
              · exact absurd heq (hnew other (hflows.subset hother))
              · exact hfirst
            · exact hearlier id hid
          · exact hearlier id hid
        · intro id signature h
          simp only at h
          by_cases hid : id = flow.id
          · exact Or.inl ⟨flow, by simp, hid.symm, hactive⟩
          · rw [AList.lookup_insert_ne hid] at h
            rcases hdetails id signature h with ⟨other, hother, hrest⟩ | ⟨hfirst, hnone⟩
            · exact Or.inl ⟨other, List.mem_append_left _ hother, hrest⟩
            · refine Or.inr ⟨hfirst, fun other hother => ?_⟩
              rcases List.mem_append.mp hother with hother | hother
              · exact hnone other hother
              · obtain rfl := List.mem_singleton.mp hother
                exact Ne.symm hid

end Tick

end ZimaScope
