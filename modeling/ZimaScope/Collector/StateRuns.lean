import ZimaScope.Ebpf.Policy
import ZimaScope.Lib.System
import ZimaScope.Policy.States

/-! # Rule states over runs

Runs of the collector from empty maps: calls that apply a program in full, and
packets in between. As long as no kept rule gives up a direction, the rule
state map holds exactly the states of the applied program.
-/

namespace ZimaScope

open WriteLog

namespace CollectorCore

/-- A packet goes through the packet path. -/
def PacketStep (core core' : CollectorCore) : Prop :=
  ∃ owners flow direction stats packetLen now, core' =
    { core with maps := (evaluate core.maps owners flow direction stats packetLen now).2.1 }

/-- A call applies a program in full. -/
def ApplyStep (core : CollectorCore) (program : CheckedPolicy) (core' : CollectorCore) : Prop :=
  ∃ summary, core.applyPolicy program = (.ok summary, core')

theorem applyStep_iff {core core' : CollectorCore} {program : CheckedPolicy} :
    core.ApplyStep program core' ↔ core.maps.Accepts (diff core.appliedPolicy program) ∧
      ⟨core.maps.effects (diff core.appliedPolicy program), program⟩ = core' := by
  constructor
  · rintro ⟨summary, h⟩
    obtain ⟨ha, he, _⟩ := applyPolicy_ok_iff.mp h
    exact ⟨ha, he⟩
  · rintro ⟨ha, he⟩
    exact ⟨_, applyPolicy_ok_iff.mpr ⟨ha, he, rfl⟩⟩

/-- Full applies and packets, from the empty maps on; `allowed` restricts which
program may follow which. -/
def appliedRuns (allowed : CompiledPolicy → CompiledPolicy → Prop) : System CollectorCore where
  init := (· = .start)
  step core core' := core.PacketStep core' ∨
    ∃ program : CheckedPolicy, allowed core.appliedPolicy program ∧ core.ApplyStep program core'

end CollectorCore

/-- A state that was absent starts out fresh, with a full bucket and zero counters. -/
theorem lookup_effects_fresh {maps : PolicyMaps} {ops : List PolicyOp} {key : BucketKey}
    {params : ℕ × ℕ} (hput : ∀ p, .put key p ∈ stateWrites ops → p = params)
    (h : maps.states.lookup key = none ∨
      maps.states.lookup key = some (upsertedState none params.1 params.2)) :
    (maps.effects ops).states.lookup key = none ∨
      (maps.effects ops).states.lookup key = some (upsertedState none params.1 params.2) := by
  induction ops generalizing maps with
  | nil => exact h
  | cons op ops ih =>
    have hrest : ∀ p, .put key p ∈ stateWrites ops → p = params := fun p hp =>
      hput p (by
        obtain ⟨o, ho, hw⟩ := List.mem_filterMap.mp hp
        exact List.mem_filterMap.mpr ⟨o, List.mem_cons_of_mem _ ho, hw⟩)
    apply ih hrest
    cases op with
    | setEnabled => exact h
    | upsertMatch entry ref =>
      cases hk : entry.key <;> simpa [PolicyMaps.effect, PolicyMaps.putMatch, hk] using h
    | removeMatch entry =>
      cases hk : entry.key <;> simpa [PolicyMaps.effect, PolicyMaps.delMatch, hk] using h
    | removeState k =>
      by_cases hk : key = k
      · subst hk
        exact Or.inl (Finmap.lookup_erase _ _)
      · simpa [PolicyMaps.effect, Finmap.lookup_erase_ne hk] using h
    | upsertState k rate burst =>
      by_cases hk : key = k
      · subst hk
        have hp : (rate, burst) = params :=
          hput _ (List.mem_filterMap.mpr ⟨_, List.mem_cons_self, rfl⟩)
        subst hp
        right
        rw [PolicyMaps.effect, Finmap.lookup_insert]
        rcases h with h | h
        · rw [h]
        · rw [h]
          rfl
      · simpa [PolicyMaps.effect, Finmap.lookup_insert_of_ne _ hk] using h

open CollectorCore

/-- The states of the applied program, as runs without a dropped direction keep them. -/
def StatesInv (core : CollectorCore) : Prop :=
  ∃ policy : CheckedPolicy, policy = core.appliedPolicy ∧ HoldsStates core.maps policy

theorem statesInv_start : StatesInv .start := by
  refine ⟨CheckedPolicy.initial, rfl, fun key params => ?_⟩
  simp [CollectorCore.start, CompiledPolicy.Allots]

theorem StatesInv.packet {core core' : CollectorCore} (h : StatesInv core)
    (hp : core.PacketStep core') : StatesInv core' := by
  obtain ⟨policy, ha, hs⟩ := h
  obtain ⟨owners, flow, direction, stats, packetLen, now, rfl⟩ := hp
  exact ⟨policy, ha, by simpa only [HoldsStates, paramsAt_evaluate] using hs⟩

theorem StatesInv.apply {core core' : CollectorCore} {program : CheckedPolicy}
    (h : StatesInv core) (hk : KeepsDirections core.appliedPolicy program)
    (ha : core.ApplyStep program core') : HoldsStates core'.maps program := by
  obtain ⟨policy, hp, hs⟩ := h
  obtain ⟨_, rfl⟩ := applyStep_iff.mp ha
  rw [← hp] at hk
  simp only [← hp]
  exact (hs.effects_diff_iff program).mpr hk

theorem statesInv_of_reachable {core : CollectorCore}
    (h : (appliedRuns KeepsDirections).Reachable core) : StatesInv core := by
  refine h.invariant (fun s hs => hs ▸ statesInv_start) ?_
  rintro core core' hi (hp | ⟨program, hk, ha⟩)
  · exact hi.packet hp
  · have hh := hi.apply hk ha
    obtain ⟨_, rfl⟩ := applyStep_iff.mp ha
    exact ⟨program, rfl, hh⟩

/-- In a run whose calls never drop a direction of a kept rule, each call leaves
exactly the states of its program, at most two for each rule, and new ones fresh. -/
theorem states_of_applied_run {core core' : CollectorCore} {program : CheckedPolicy}
    (hr : (appliedRuns KeepsDirections).Reachable core)
    (hk : KeepsDirections core.appliedPolicy program) (ha : core.ApplyStep program core') :
    HoldsStates core'.maps program ∧
      core'.maps.states.keys.card ≤ 2 * program.rules.length ∧
      ∀ key params, program.Allots key params → (∀ p, ¬ core.appliedPolicy.Allots key p) →
        core'.maps.states.lookup key =
          some { rateBytesPerS := params.1, burstBytes := params.2, tokens := params.2 } := by
  have hi := statesInv_of_reachable hr
  have hh := hi.apply hk ha
  refine ⟨hh, hh.card_le, fun key params hal hnew => ?_⟩
  obtain ⟨policy, hp, hs⟩ := hi
  obtain ⟨_, rfl⟩ := applyStep_iff.mp ha
  rw [← hp] at hnew
  simp only [← hp]
  have habsent : core.maps.states.lookup key = none := by
    rw [Finmap.lookup_eq_none, ← PolicyMaps.isSome_paramsAt, Option.isSome_iff_exists]
    rintro ⟨p, hp⟩
    exact hnew p ((hs key p).mp hp)
  have hput : ∀ p, .put key p ∈ stateWrites (diff policy program) → p = params := by
    intro p hm
    rw [stateWrites_diff, put_mem_log] at hm
    obtain ⟨stage, hst, hpm⟩ := hm
    exact program.allots_unique (allots_of_mem_puts hst hpm) hal
  have hheld : ((core.maps.effects (diff policy program)).states.lookup key).isSome := by
    have hp := (hh key params).mpr hal
    simp only [← ‹policy.toCompiledPolicy = core.appliedPolicy›] at hp
    rw [Finmap.lookup_isSome, ← PolicyMaps.isSome_paramsAt, hp]
    rfl
  rcases lookup_effects_fresh hput (Or.inl habsent) with hn | hf
  · rw [hn] at hheld
    simp at hheld
  · exact hf

/-- A rule in both directions, and the same rule narrowed to inbound traffic. -/
def narrowBefore : CheckedPolicy :=
  .ofResolved [⟨1, .limit 8192 16384, .both, [.endpoint (.new 203 0 113 1) none]⟩]
    (by decide) (by decide) (by decide)

def narrowAfter : CheckedPolicy :=
  .ofResolved [⟨1, .limit 8192 16384, .inbound, [.endpoint (.new 203 0 113 1) none]⟩]
    (by decide) (by decide) (by decide)

/-- The core after the first of the two programs. -/
def narrowCore : CollectorCore := (CollectorCore.start.applyPolicy narrowBefore).2

theorem states_of_first_apply :
    HoldsStates narrowCore.maps narrowBefore ∧
      narrowCore.maps.states.keys.card ≤ 2 * narrowBefore.rules.length ∧
      ∀ key params, narrowBefore.Allots key params →
        (∀ p, ¬ CollectorCore.start.appliedPolicy.Allots key p) →
        narrowCore.maps.states.lookup key =
          some { rateBytesPerS := params.1, burstBytes := params.2, tokens := params.2 } :=
  states_of_applied_run (.init rfl) (fun _ _ _ h => by simp [CollectorCore.start,
    CompiledPolicy.rule] at h) ⟨⟨0, 5, 1⟩, rfl⟩

/-- Narrowing the rule leaves the state of the dropped direction behind. -/
theorem narrowed_direction_keeps_state :
    CollectorCore.start.ApplyStep narrowBefore narrowCore ∧
      narrowCore.ApplyStep narrowAfter (narrowCore.applyPolicy narrowAfter).2 ∧
      ¬ HoldsStates (narrowCore.applyPolicy narrowAfter).2.maps narrowAfter := by
  refine ⟨⟨⟨0, 5, 1⟩, rfl⟩, ⟨⟨0, 2, 1⟩, rfl⟩, fun h => ?_⟩
  have ha := (h ⟨1, 2⟩ (8192, 16384)).mp (by decide)
  revert ha
  decide

end ZimaScope
