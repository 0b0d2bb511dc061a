import ZimaScope.Collector.StateRuns
import ZimaScope.Policy.Executable

/-! # Recovery after an aborted apply

Runs in which any call may abort after some of its operations. The worker then
keeps the previous program as the applied one, so the next reconciliation is
computed against a program the maps no longer hold.
-/

namespace ZimaScope

open WriteLog

namespace CollectorCore

/-- A call aborts before its last operation; what ran before stays in the maps. -/
def AbortStep (core : CollectorCore) (program : CheckedPolicy) (core' : CollectorCore) : Prop :=
  ∃ executed op rest maps, diff core.appliedPolicy program = executed ++ op :: rest ∧
    applyOps core.maps executed = (.ok (), maps) ∧ core' = { core with maps }

/-- Calls that may abort anywhere, and packets, from the empty maps on. -/
def faultyRuns : System CollectorCore where
  init := (· = .start)
  step core core' := core.PacketStep core' ∨
    ∃ program : CheckedPolicy, core.ApplyStep program core' ∨ core.AbortStep program core'

/-- A call that fails by itself is an aborted call. -/
theorem abortStep_of_error {core core' : CollectorCore} {program : CheckedPolicy}
    {error : ApplyError} (h : core.applyPolicy program = (.error error, core')) :
    core.AbortStep program core' := by
  unfold applyPolicy at h
  simp only at h
  split at h
  · next e maps hm =>
    obtain ⟨executed, rest, hd, he, hr⟩ :=
      applyOps_executes core.maps (diff core.appliedPolicy program)
    rw [hm] at he
    simp only [Prod.mk.injEq, Except.error.injEq] at h
    cases rest with
    | nil =>
      rw [List.append_nil] at hd
      rw [hd, he] at hm
      simp at hm
    | cons op rest => exact ⟨executed, op, rest, maps, hd, he, h.2.symm⟩
  · simp at h

end CollectorCore

open CollectorCore

/-- What every run keeps: the applied program is a checked one and no map is overfull. -/
structure WithinBounds (core : CollectorCore) : Prop where
  checked : ∃ policy : CheckedPolicy, policy = core.appliedPolicy
  matches_le : ∀ tier, (occupied MatchKey.tier core.maps.matchAt tier).encard ≤ maxTrafficRules
  states_le : (occupied (fun _ => ()) core.maps.paramsAt ()).encard ≤ ruleStateCapacity

theorem withinBounds_start : WithinBounds .start := by
  refine ⟨⟨CheckedPolicy.initial, rfl⟩, fun tier => ?_, ?_⟩ <;>
    simp [occupied, CollectorCore.start]

theorem WithinBounds.effects {core : CollectorCore} {ops : List PolicyOp}
    {applied : CompiledPolicy} (h : WithinBounds core) (ha : core.maps.Accepts ops)
    (hc : ∃ policy : CheckedPolicy, policy = applied) :
    WithinBounds ⟨core.maps.effects ops, applied⟩ := by
  refine ⟨hc, fun tier => ?_, ?_⟩
  · rw [PolicyMaps.matchAt_effects]
    exact ha.matchLegal.encard_le h.matches_le tier
  · rw [PolicyMaps.paramsAt_effects]
    exact ha.stateLegal.encard_le (fun _ => h.states_le) ()

theorem withinBounds_of_reachable {core : CollectorCore} (h : faultyRuns.Reachable core) :
    WithinBounds core := by
  refine h.invariant (fun s hs => hs ▸ withinBounds_start) ?_
  rintro core core' hi (hp | ⟨program, ha | ha⟩)
  · obtain ⟨owners, flow, direction, stats, packetLen, now, rfl⟩ := hp
    refine ⟨hi.checked, fun tier => ?_, ?_⟩
    · simpa only [matchAt_evaluate] using hi.matches_le tier
    · simpa only [paramsAt_evaluate] using hi.states_le
  · obtain ⟨haccepts, rfl⟩ := applyStep_iff.mp ha
    exact hi.effects haccepts ⟨program, rfl⟩
  · obtain ⟨executed, op, rest, maps, _, he, rfl⟩ := ha
    obtain ⟨haccepts, rfl⟩ := applyOps_ok_iff.mp he
    exact hi.effects haccepts hi.checked

/-- What the next call asks of the maps: the keys it removes are there, and
what it does not touch is already as the program wants it. -/
structure Recoverable (maps : PolicyMaps) (applied program : CompiledPolicy) : Prop where
  executable : Executable maps.Held applied program
  retiredStates : ∀ key ∈ retiredStateKeys applied program, key ∈ maps.states
  reinstates : Reinstates applied program
  matchesIntact : MatchesIntact maps applied program
  statesIntact : StatesIntact maps applied program

theorem StatesIntact.statesFit {maps : PolicyMaps} {previous next : CheckedPolicy}
    (h : StatesIntact maps previous next) : StatesFit maps previous next := by
  intro key hk hret
  by_cases hc : ∃ rule ∈ next.rules, key ∈ changedKeys previous rule
  · obtain ⟨rule, hr, hc⟩ := hc
    exact mem_slots_of_changedKeys hr hc
  · obtain ⟨p, hp⟩ := Option.isSome_iff_exists.mp ((maps.isSome_paramsAt key).mpr hk)
    have hu : StateUntouched previous next key :=
      ⟨hret, fun rule hr hk => hc ⟨rule, hr, hk⟩⟩
    exact ((h key hu p).mp hp).mem_stateSlots

/-- One rule on one address. -/
def loneRule : CheckedPolicy :=
  .ofResolved [⟨1, .block, .outbound, [.endpoint (.new 203 0 113 1) none]⟩]
    (by decide) (by decide) (by decide)

/-- The core after applying the rule, and after removing it aborted halfway. -/
def loneCore : CollectorCore := (CollectorCore.start.applyPolicy loneRule).2

def abortedCore : CollectorCore :=
  { loneCore with
    maps := (applyOps loneCore.maps ((diff loneRule CheckedPolicy.initial).take 2)).2 }

end ZimaScope
