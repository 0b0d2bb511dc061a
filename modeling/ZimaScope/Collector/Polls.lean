import Mathlib.Algebra.Order.Monoid.Prod
import Mathlib.Algebra.Order.Sub.Prod
import ZimaScope.Collector.Accounting

/-! # Runs of polls

The kernel Flow map changes all the time; polls walk it and fail or succeed.
Seen from one Flow, every run is a run of a polled counter.
-/

namespace ZimaScope

open PolledCounter (Reading Sighting History)

/-- A live entry of the kernel Flow map. Its map holds a value for every CPU. -/
structure KernelFlow where
  values : List FlowValue
  values_ne : values ≠ []

namespace KernelFlow

def merged (flow : KernelFlow) : MergedValues := mergeValues flow.values

def reading (flow : KernelFlow) : Reading (ℕ × ℕ) ℕ := flow.merged.reading

end KernelFlow

/-- A visited entry, with the traffic of the evicted entries of its key before it. -/
structure Visit where
  key : AbiFlowKey
  flow : KernelFlow
  base : ℕ × ℕ

namespace Visit

def sighting (visit : Visit) : Sighting (ℕ × ℕ) ℕ := ⟨visit.base, visit.flow.reading⟩

def entry (visit : Visit) : Option MergedFlow := mergeEntry visit.key visit.flow.values

end Visit

/-- The kernel map, the tracker and the poll under way, which still has to visit
the entries in `due`. The other fields record the run. -/
structure PollWorld where
  entries : Finmap fun _ : AbiFlowKey => KernelFlow
  tracker : FlowTracker
  due : Option (Finset AbiFlowKey) := none
  visits : List Visit := []
  updates : List FlowUpdate := []
  retired : AbiFlowKey → ℕ × ℕ := fun _ => 0
  evicted : Finset AbiFlowKey := ∅
  observed : AbiFlowKey → ℕ × ℕ := fun _ => 0

namespace PollWorld

def visitsOf (w : PollWorld) (key : AbiFlowKey) : List Visit :=
  w.visits.filter fun visit => visit.key = key

/-- The traffic the kernel has recorded for a key, over all its entries. -/
def recorded (w : PollWorld) (key : AbiFlowKey) : ℕ × ℕ :=
  w.retired key + ((w.entries.lookup key).map fun flow => flow.merged.total.pair).getD 0

end PollWorld

inductive PollStep : PollWorld → PollWorld → Prop
  | create {w key} {flow : KernelFlow} (hk : key.ZeroExtended) (hl : w.entries.lookup key = none) :
    PollStep w { w with entries := w.entries.insert key flow }
  | grow {w key} {flow flow' : KernelFlow} (hl : w.entries.lookup key = some flow)
      (hg : flow.reading.Grows flow'.reading) :
    PollStep w { w with entries := w.entries.insert key flow' }
  | evict {w key} {flow : KernelFlow} (hl : w.entries.lookup key = some flow) :
    PollStep w { w with
      entries := w.entries.erase key
      retired := Function.update w.retired key (w.retired key + flow.merged.total.pair)
      evicted := insert key w.evicted
      due := w.due.map fun due => due.erase key }
  | begin {w} : PollStep w { w with
      tracker := w.tracker.mergedBuffer, visits := [], due := some w.entries.keys }
  | visit {w key due} {flow : KernelFlow} (hd : w.due = some due)
      (hl : w.entries.lookup key = some flow) : PollStep w { w with
      tracker := w.tracker.visitFlow key flow.values
      visits := w.visits ++ [⟨key, flow, w.retired key⟩]
      due := some (due.erase key) }
  | service {w key label} : PollStep w { w with tracker := w.tracker.setService key label }
  | owner {w key value at'} : PollStep w { w with tracker := w.tracker.recordOwner key value at' }
  | succeed {w now} (hd : w.due = some ∅) : PollStep w { w with
      tracker := (w.tracker.reconcile now).2
      updates := w.updates ++ (w.tracker.reconcile now).1
      due := none
      visits := []
      observed := fun key => ((w.visitsOf key).getLast?.map fun visit =>
        visit.flow.merged.total.pair).getD (w.observed key) }
  | fail {w} : PollStep w { w with due := none }

/-- Runs of polls from an empty Flow map. -/
def polling (idleTimeout : Duration) : System PollWorld where
  init w := w = { entries := ∅, tracker := .new idleTimeout }
  step := PollStep

/-- The buffer holds what was visited, and only entries with IPv4 keys are visited. -/
structure PollWorld.Consistent (w : PollWorld) : Prop where
  entries_key : ∀ key flow, w.entries.lookup key = some flow → key.ZeroExtended
  visits_key : ∀ visit ∈ w.visits, visit.key.ZeroExtended
  merged_eq : w.tracker.merged = w.visits.filterMap Visit.entry

/-- The run as one Flow sees it. -/
def PollWorld.history (w : PollWorld) (key : AbiFlowKey) (flow : FlowKey) :
    History (ℕ × ℕ) ℕ where
  emitted := emitted flow w.updates
  held := w.tracker.held flow
  sightings := (w.visitsOf key).map Visit.sighting
  live := (w.entries.lookup key).map KernelFlow.reading
  retired := w.retired key
  evicted := key ∈ w.evicted
  due := w.due.map fun due => key ∈ due
  observed := w.observed key

section Visits

variable {key : AbiFlowKey} {flow : FlowKey}

theorem entry_eq (visit : Visit) : visit.entry =
    (decodeKey visit.key).map fun key => { visit.flow.merged with key } :=
  if_neg visit.flow.values_ne

/-- The merged entries of a Flow are those of the one kernel key that decodes to it. -/
theorem readings_of_visits (hk : key.ZeroExtended) (hd : decodeKey key = some flow)
    {visits : List Visit} (hv : ∀ visit ∈ visits, visit.key.ZeroExtended) :
    (mergedOf flow (visits.filterMap Visit.entry)).map (fun m => m.reading) =
      ((visits.filter fun visit => visit.key = key).map Visit.sighting).map Sighting.reading := by
  induction visits with
  | nil => rfl
  | cons visit visits ih =>
    have ih := ih fun v h => hv v (List.mem_cons_of_mem _ h)
    by_cases hkey : visit.key = key
    · have hentry : visit.entry = some { visit.flow.merged with key := flow } := by
        rw [entry_eq, hkey, hd]
        rfl
      rw [List.filterMap_cons_some hentry, mergedOf, List.filter_cons_of_pos (by simp),
        List.filter_cons_of_pos (by simpa using hkey), List.map_cons, List.map_cons, List.map_cons,
        ← mergedOf, ih]
      rfl
    · rw [List.filter_cons_of_neg (by simpa using hkey), ← ih]
      cases hd' : decodeKey visit.key with
      | none =>
        rw [List.filterMap_cons_none (by rw [entry_eq, hd']; rfl)]
      | some flow' =>
        have hne : flow' ≠ flow := by
          rintro rfl
          exact hkey (decodeKey_injective (hv visit List.mem_cons_self) hk hd' hd)
        have hentry : visit.entry = some { visit.flow.merged with key := flow' } := by
          rw [entry_eq, hd']
          rfl
        rw [List.filterMap_cons_some hentry, mergedOf, List.filter_cons_of_neg (by simpa using hne),
          ← mergedOf]

end Visits

section Refinement

variable {w w' : PollWorld} {key : AbiFlowKey} {flow : FlowKey}

/-- Only entries with IPv4 keys are written. -/
theorem PollWorld.Consistent.insert (hc : w.Consistent) (hk : key.ZeroExtended)
    (entry : KernelFlow) :
    PollWorld.Consistent { w with entries := w.entries.insert key entry } where
  entries_key key' flow h := by
    by_cases hkey : key' = key
    · exact hkey ▸ hk
    · exact hc.entries_key key' flow (by rwa [Finmap.lookup_insert_of_ne _ hkey] at h)
  visits_key := hc.visits_key
  merged_eq := hc.merged_eq

theorem PollWorld.Consistent.step (hc : w.Consistent) (hs : PollStep w w') : w'.Consistent := by
  have ⟨he, hv, hm⟩ := hc
  cases hs with
  | create hk hl => exact hc.insert hk _
  | grow hl hg => exact hc.insert (he _ _ hl) _
  | @evict key' flow' hl =>
    refine ⟨fun key flow h => ?_, hv, hm⟩
    by_cases hkey : key = key'
    · exact hkey ▸ he key' flow' hl
    · exact he key flow (by rwa [Finmap.lookup_erase_ne hkey] at h)
  | begin => exact ⟨he, by simp, rfl⟩
  | @visit key' due flow' hd hl =>
    refine ⟨he, fun v h => ?_, ?_⟩
    · rcases List.mem_append.mp h with h | h
      · exact hv v h
      · rw [List.mem_singleton.mp h]
        exact he key' flow' hl
    · have hentry : (mergeEntry key' flow'.values).toList =
          [(⟨key', flow', w.retired key'⟩ : Visit)].filterMap Visit.entry := by
        cases h : mergeEntry key' flow'.values <;> simp [Visit.entry, h]
      rw [List.filterMap_append, ← hentry, ← hm]
      rfl
  | service => exact ⟨he, hv, (merged_setService _ _ _).trans hm⟩
  | owner => exact ⟨he, hv, (previous_recordOwner _ _ _ _).2.trans hm⟩
  | succeed hd => exact ⟨he, by simp, merged_reconcile _ _⟩
  | fail => exact ⟨he, hv, hm⟩

/-- Writing an entry changes what is live of its own Flow only. -/
theorem history_insert (w : PollWorld) (key : AbiFlowKey) (flow : FlowKey) (entry : KernelFlow) :
    PollWorld.history { w with entries := w.entries.insert key entry } key flow =
      { w.history key flow with live := some entry.reading } := by
  simp only [PollWorld.history, Finmap.lookup_insert]
  rfl

theorem history_insert_of_ne {key' : AbiFlowKey} (h : key ≠ key') (entry : KernelFlow) :
    PollWorld.history { w with entries := w.entries.insert key' entry } key flow =
      w.history key flow := by
  simp only [PollWorld.history, Finmap.lookup_insert_of_ne _ h]
  rfl

/-- Evicting an entry retires the traffic of its own Flow only. -/
theorem history_evict (w : PollWorld) (key : AbiFlowKey) (flow : FlowKey) (entry : KernelFlow) :
    PollWorld.history { w with
        entries := w.entries.erase key
        retired := Function.update w.retired key (w.retired key + entry.merged.total.pair)
        evicted := insert key w.evicted
        due := w.due.map fun due => due.erase key } key flow =
      { w.history key flow with
        live := none
        retired := (w.history key flow).retired + entry.reading.total
        evicted := true
        due := (w.history key flow).due.map fun _ => false } := by
  have hdue : ((w.due.map fun due => due.erase key).map fun due => decide (key ∈ due)) =
      ((w.due.map fun due => decide (key ∈ due)).map fun _ => false) := by
    cases w.due <;> simp
  simp only [PollWorld.history, Finmap.lookup_erase, Function.update_self, hdue,
    Finset.mem_insert_self, decide_true]
  rfl

theorem history_evict_of_ne {key' : AbiFlowKey} (h : key ≠ key') (entry : KernelFlow) :
    PollWorld.history { w with
        entries := w.entries.erase key'
        retired := Function.update w.retired key' (w.retired key' + entry.merged.total.pair)
        evicted := insert key' w.evicted
        due := w.due.map fun due => due.erase key' } key flow =
      w.history key flow := by
  have hdue : ((w.due.map fun due => due.erase key').map fun due => decide (key ∈ due)) =
      w.due.map fun due => decide (key ∈ due) := by
    cases w.due <;> simp [h]
  have hevicted : decide (key ∈ insert key' w.evicted) = decide (key ∈ w.evicted) := by
    simp [h]
  simp only [PollWorld.history, Finmap.lookup_erase_ne h, Function.update_of_ne h, hdue, hevicted]
  rfl

/-- A poll has to visit a Flow that is live when it begins. -/
theorem history_begin (w : PollWorld) (key : AbiFlowKey) (flow : FlowKey) :
    PollWorld.history { w with
        tracker := w.tracker.mergedBuffer, visits := [], due := some w.entries.keys } key flow =
      { w.history key flow with
        sightings := [], due := some (w.history key flow).live.isSome } := by
  have hdue : decide (key ∈ w.entries.keys) = (w.history key flow).live.isSome := by
    simp only [PollWorld.history, Option.isSome_map, Finmap.mem_keys]
    rw [Bool.eq_iff_iff, decide_eq_true_eq, Finmap.lookup_isSome]
  rw [← hdue]
  rfl

/-- Visiting an entry sights its own Flow only. -/
theorem history_visit (w : PollWorld) (key : AbiFlowKey) (flow : FlowKey) (entry : KernelFlow)
    (due : Finset AbiFlowKey) :
    PollWorld.history { w with
        tracker := w.tracker.visitFlow key entry.values
        visits := w.visits ++ [⟨key, entry, w.retired key⟩]
        due := some (due.erase key) } key flow =
      { w.history key flow with
        sightings := (w.history key flow).sightings ++
          [⟨(w.history key flow).retired, entry.reading⟩]
        due := some false } := by
  simp only [PollWorld.history, PollWorld.visitsOf, List.filter_append, List.map_append,
    Option.map_some, Finset.notMem_erase, decide_false]
  simp [Visit.sighting, FlowTracker.visitFlow, FlowTracker.held]

theorem history_visit_of_ne {key' : AbiFlowKey} {due : Finset AbiFlowKey} (h : key ≠ key')
    (hd : w.due = some due) (entry : KernelFlow) :
    PollWorld.history { w with
        tracker := w.tracker.visitFlow key' entry.values
        visits := w.visits ++ [⟨key', entry, w.retired key'⟩]
        due := some (due.erase key') } key flow =
      w.history key flow := by
  simp [PollWorld.history, PollWorld.visitsOf, FlowTracker.visitFlow, FlowTracker.held, h,
    Ne.symm h, hd]

theorem history_succeed (w : PollWorld) (key : AbiFlowKey) (flow : FlowKey) (now : Instant) :
    PollWorld.history { w with
        tracker := (w.tracker.reconcile now).2
        updates := w.updates ++ (w.tracker.reconcile now).1
        due := none
        visits := []
        observed := fun key => ((w.visitsOf key).getLast?.map fun visit =>
          visit.flow.merged.total.pair).getD (w.observed key) } key flow =
      { w.history key flow with
        emitted := (w.history key flow).emitted + emitted flow (w.tracker.reconcile now).1
        held := (w.tracker.reconcile now).2.held flow
        sightings := [], due := none
        observed := ((w.history key flow).sightings.getLast?.map fun s =>
          s.reading.total).getD (w.history key flow).observed } := by
  simp only [PollWorld.history, emitted_append, List.getLast?_map, Option.map_map]
  rfl

/-- A step of the run is, for one Flow, a step of its counter or none. -/
theorem history_step (hc : w.Consistent) (hs : PollStep w w') (hk : key.ZeroExtended)
    (hd : decodeKey key = some flow) :
    w'.history key flow = w.history key flow ∨
      PolledCounter.Step (w.history key flow) (w'.history key flow) := by
  cases hs with
  | @create key' flow' hk' hl =>
    by_cases hkey : key = key'
    · subst hkey
      rw [history_insert]
      exact Or.inr (.create (by simp [PollWorld.history, hl]))
    · exact Or.inl (history_insert_of_ne hkey flow')
  | @grow key' flow' flow'' hl hg =>
    by_cases hkey : key = key'
    · subst hkey
      rw [history_insert]
      exact Or.inr (.grow (by simp [PollWorld.history, hl]) hg)
    · exact Or.inl (history_insert_of_ne hkey flow'')
  | @evict key' flow' hl =>
    by_cases hkey : key = key'
    · subst hkey
      rw [history_evict]
      exact Or.inr (.evict (by simp [PollWorld.history, hl]))
    · exact Or.inl (history_evict_of_ne hkey flow')
  | begin =>
    rw [history_begin]
    exact Or.inr .begin
  | @visit key' due flow' hdue hl =>
    by_cases hkey : key = key'
    · subst hkey
      rw [history_visit]
      exact Or.inr (.visit (by simp [PollWorld.history, hl]))
    · exact Or.inl (history_visit_of_ne hkey hdue flow')
  | @service key' label =>
    left
    simp only [PollWorld.history, held_setService]
    rfl
  | @owner key' value at' =>
    left
    have hheld : (w.tracker.recordOwner key' value at').held flow = w.tracker.held flow := by
      rw [FlowTracker.held, (previous_recordOwner _ _ _ _).1, FlowTracker.held]
    simp only [PollWorld.history, hheld]
    rfl
  | @succeed now hdue =>
    right
    obtain ⟨held, ho, hheld⟩ := reconcile_observes now w.tracker flow
    have hreadings : (mergedOf flow w.tracker.merged).map (fun m => m.reading) =
        (w.history key flow).sightings.map Sighting.reading := by
      rw [hc.merged_eq]
      exact readings_of_visits hk hd hc.visits_key
    rw [hreadings] at ho
    have hforgotten : (w.tracker.reconcile now).2.held flow = held ∨
        ((w.history key flow).sightings = [] ∧ (w.tracker.reconcile now).2.held flow = none) := by
      refine hheld.imp_right fun hnil => ⟨?_, hnil.2⟩
      rw [hnil.1] at hreadings
      simpa using hreadings.symm
    have hvisited : (w.history key flow).due = some false := by simp [PollWorld.history, hdue]
    rw [history_succeed]
    exact .succeed hvisited ho hforgotten
  | fail => exact Or.inr .fail

theorem consistent_of_reachable {idleTimeout : Duration}
    (hr : (polling idleTimeout).Reachable w) : w.Consistent := by
  refine hr.invariant (fun w hw => ?_) fun w w' hc hs => hc.step hs
  rw [hw]
  exact ⟨fun key flow h => by simp at h, by simp, rfl⟩

/-- Every run of polls is, for each Flow, a run of a polled counter. -/
theorem history_reachable {idleTimeout : Duration} (hr : (polling idleTimeout).Reachable w)
    (hk : key.ZeroExtended) (hd : decodeKey key = some flow) :
    PolledCounter.system.Reachable (w.history key flow) := by
  induction hr with
  | init h =>
    rw [h]
    exact .init rfl
  | step hr hs ih =>
    rcases history_step (consistent_of_reachable hr) hs hk hd with heq | hstep
    · rwa [heq]
    · exact .step ih hstep

theorem reachable_step {idleTimeout : Duration} (hr : (polling idleTimeout).Reachable w)
    (hs : PollStep w w') : (polling idleTimeout).Reachable w' :=
  .step hr hs

/-- Delta accounting is exact: what is emitted for a Flow never exceeds what the
kernel recorded for it, and equals the last total observed as long as its entry
has not been evicted. -/
theorem delta_accounting {idleTimeout : Duration} (hr : (polling idleTimeout).Reachable w)
    (hk : key.ZeroExtended) (hd : decodeKey key = some flow) :
    emitted flow w.updates ≤ w.recorded key ∧
      (key ∉ w.evicted → emitted flow w.updates = w.observed key) := by
  have hreach := history_reachable hr hk hd
  constructor
  · have hrecorded : (w.history key flow).recorded = w.recorded key := by
      rw [PolledCounter.History.recorded, PollWorld.history, Option.map_map]
      rfl
    rw [← hrecorded]
    exact PolledCounter.emitted_le_recorded hreach
  · intro hn
    exact PolledCounter.emitted_eq_observed hreach (by simp [PollWorld.history, hn])

end Refinement

section Example

def sshKey : AbiFlowKey where
  srcAddr := ipv4Storage (.new 10 0 0 2)
  dstAddr := ipv4Storage (.new 1 1 1 1)
  srcPortBe := toBe 40000
  dstPortBe := toBe 22
  ifindex := 7
  protocol := TransportProtocol.tcp.toU8
  direction := Direction.outbound.toU8
  ipFamily := IpFamily.v4.toU8

def sshFlow : FlowKey where
  source := ⟨.v4 (.new 10 0 0 2), some 40000⟩
  destination := ⟨.v4 (.new 1 1 1 1), some 22⟩
  interfaceIndex := ⟨7, by decide⟩
  protocol := .tcp
  direction := .outbound

def threePackets : KernelFlow := ⟨[⟨3, 300, 100, 200, 0⟩], by simp⟩

def fivePackets : KernelFlow := ⟨[⟨5, 500, 100, 400, 0⟩], by simp⟩

/-- Two polls, with traffic between them. -/
theorem delta_accounting_two_polls : ∃ w, (polling (fromSecs 30)).Reachable w ∧
    w.updates.length = 2 ∧ emitted sshFlow w.updates ≤ w.recorded sshKey ∧
      emitted sshFlow w.updates = w.observed sshKey ∧ w.observed sshKey = (5, 500) := by
  have h₀ : (polling (fromSecs 30)).Reachable { entries := ∅, tracker := .new (fromSecs 30) } :=
    .init rfl
  have h₁ := reachable_step h₀ (@PollStep.create _ sshKey threePackets (by decide) rfl)
  have h₂ := reachable_step h₁ .begin
  have h₃ := reachable_step h₂ (@PollStep.visit _ sshKey _ threePackets rfl (Finmap.lookup_insert _))
  have h₄ := reachable_step h₃ (@PollStep.succeed _ 0 (by decide +kernel))
  have h₅ := reachable_step h₄ (@PollStep.grow _ sshKey threePackets fivePackets
    (Finmap.lookup_insert _) ⟨by decide, by decide, fun _ => by decide⟩)
  have h₆ := reachable_step h₅ .begin
  have h₇ := reachable_step h₆ (@PollStep.visit _ sshKey _ fivePackets rfl (Finmap.lookup_insert _))
  have h₈ := reachable_step h₇ (@PollStep.succeed _ 10 (by decide +kernel))
  obtain ⟨hle, heq⟩ := delta_accounting h₈ (show sshKey.ZeroExtended by decide)
    (show decodeKey sshKey = some sshFlow by decide)
  exact ⟨_, h₈, by decide +kernel, hle, heq (by decide +kernel), by decide +kernel⟩

end Example

end ZimaScope
