import ZimaScope.Collector.RateChange
import ZimaScope.Ebpf.PacketLedger

/-! # Enforcement across CPUs

The counters of the rule states against the packets that were enforced, on whichever CPU, and the
packets that a CPU drops against those that were enforced with a drop. User space may exchange
the rules that packets select, as long as it leaves the rule states alone.
-/

namespace ZimaScope

/-- The packets that were enforced on a rule state, with their verdicts. -/
def PacketEvent.enforcedOn? {Cpu : Type} (key : BucketKey) :
    PacketEvent Cpu → Option (PacketRun × Verdict)
  | .enforced _ run rule (some verdict) =>
    if (⟨rule.ruleId, run.direction.toU8⟩ : BucketKey) = key then some (run, verdict) else none
  | _ => none

def PacketEvent.enforcedDrop? {Cpu : Type} : PacketEvent Cpu → Option PacketRun
  | .enforced _ run _ (some .drop) => some run
  | _ => none

def PacketEvent.shot? {Cpu : Type} : PacketEvent Cpu → Option PacketRun
  | .shot _ run => some run
  | _ => none

/-- The packet that is to be dropped next. -/
def PacketPhase.dropped? : PacketPhase → Option PacketRun
  | .dropped run => some run
  | _ => none

namespace RuleState

/-- The counters of a state that was `start` before packets were enforced on it. -/
structure CountsOf (start : RuleState) (enforced : List (PacketRun × Verdict)) (state : RuleState) :
    Prop where
  matchedPackets : state.matchedPackets = min (start.matchedPackets + enforced.length) u64Max
  matchedBytes : state.matchedBytes =
    min (start.matchedBytes + (enforced.map fun packet => packet.1.skb.len).sum) u64Max
  droppedPackets : state.droppedPackets =
    min (start.droppedPackets + (enforced.map fun packet => packet.2.dropped 1).sum) u64Max
  droppedBytes : state.droppedBytes = min (start.droppedBytes +
    (enforced.map fun packet => packet.2.dropped packet.1.skb.len).sum) u64Max

theorem countsOf_nil {state : RuleState} (h : CountersSound state) : state.CountsOf [] state where
  matchedPackets := (min_eq_left h.packets_le).symm
  matchedBytes := (min_eq_left h.bytes_le).symm
  droppedPackets := (min_eq_left (h.dropped_packets_le.trans h.packets_le)).symm
  droppedBytes := (min_eq_left (h.dropped_bytes_le.trans h.bytes_le)).symm

/-- What the counters become under the lock; a packet that passes leaves the drops alone. -/
theorem enforceLocked_saturates {state : RuleState} (rule : RuleRef) (packetLen now : ℕ)
    (hpackets : state.droppedPackets ≤ u64Max) (hbytes : state.droppedBytes ≤ u64Max) :
    let result := ZimaScope.enforceLocked rule packetLen now state
    result.2.matchedPackets = satAdd state.matchedPackets 1 ∧
      result.2.matchedBytes = satAdd state.matchedBytes packetLen ∧
      result.2.droppedPackets = satAdd state.droppedPackets (result.1.dropped 1) ∧
      result.2.droppedBytes = satAdd state.droppedBytes (result.1.dropped packetLen) := by
  obtain ⟨hp, hb, hdp, hdb⟩ := counters_refill state now
  have hzero {n : ℕ} (hn : n ≤ u64Max) : n = satAdd n 0 := (min_eq_left hn).symm
  unfold ZimaScope.enforceLocked dropPacket
  simp only
  split
  · simp only [hp, hb, hdp, hdb]
    exact ⟨trivial, trivial, rfl, rfl⟩
  · split
    · simp only [hp, hb, hdp, hdb]
      exact ⟨trivial, trivial, hzero hpackets, hzero hbytes⟩
    · simp only [hp, hb, hdp, hdb]
      exact ⟨trivial, trivial, rfl, rfl⟩

/-- One more packet under the lock. -/
theorem CountsOf.enforceLocked {start state : RuleState} {enforced : List (PacketRun × Verdict)}
    (h : start.CountsOf enforced state) (run : PacketRun) (rule : RuleRef) (now : ℕ) :
    let result := ZimaScope.enforceLocked rule run.skb.len now state
    start.CountsOf (enforced ++ [(run, result.1)]) result.2 := by
  have hpackets : state.droppedPackets ≤ u64Max := h.droppedPackets ▸ min_le_right _ _
  have hbytes : state.droppedBytes ≤ u64Max := h.droppedBytes ▸ min_le_right _ _
  obtain ⟨hmp, hmb, hdp, hdb⟩ := enforceLocked_saturates rule run.skb.len now hpackets hbytes
  intro result
  constructor
  · rw [hmp, h.matchedPackets, satAdd_min, List.length_append]
    rfl
  · rw [hmb, h.matchedBytes, satAdd_min, List.map_append, List.sum_append, Nat.add_assoc]
    rfl
  · rw [hdp, h.droppedPackets, satAdd_min, List.map_append, List.sum_append, Nat.add_assoc]
    rfl
  · rw [hdb, h.droppedBytes, satAdd_min, List.map_append, List.sum_append, Nat.add_assoc]
    rfl

end RuleState

/-! ## The run -/

section Run

variable {Cpu : Type} [DecidableEq Cpu] {s s' : PacketSystem Cpu} {start policy : PolicyMaps}
  {writes : PolicyMaps → PolicyMaps → Prop}

/-- What has been enforced on a rule state, on any CPU. -/
def enforcedOn (log : List (PacketEvent Cpu)) (key : BucketKey) : List (PacketRun × Verdict) :=
  log.filterMap (PacketEvent.enforcedOn? key)

/-- Every rule state that was there counts what was enforced on it, and no other one is there. -/
def StatesCount (start : PolicyMaps) (s : PacketSystem Cpu) : Prop :=
  ∀ key, match start.states.lookup key with
    | none => s.maps.policy.states.lookup key = none
    | some before => ∃ state, s.maps.policy.states.lookup key = some state ∧
        before.CountsOf (enforcedOn s.log key) state

/-- What a CPU drops is what was enforced on it with a drop, in the same order. -/
def DropsEnforced (s : PacketSystem Cpu) (cpu : Cpu) : Prop :=
  (eventsOn s.log cpu).filterMap PacketEvent.enforcedDrop? =
    (eventsOn s.log cpu).filterMap PacketEvent.shot? ++ (s.phase cpu).dropped?.toList

omit [DecidableEq Cpu] in
theorem StatesCount.of_same (h : StatesCount start s)
    (hstates : s'.maps.policy.states = s.maps.policy.states)
    (hlog : ∀ key, enforcedOn s'.log key = enforcedOn s.log key) : StatesCount start s' := by
  intro key
  have hkey := h key
  rw [hstates, hlog]
  exact hkey

omit [DecidableEq Cpu] in
theorem enforcedOn_concat (log : List (PacketEvent Cpu)) (event : PacketEvent Cpu) (key : BucketKey) :
    enforcedOn (log ++ [event]) key = enforcedOn log key ++ (event.enforcedOn? key).toList :=
  History.filterMap_concat ..

theorem StatesCount.enforce (h : StatesCount start s) (cpu : Cpu) (run : PacketRun) (rule : RuleRef)
    (now : ℕ) : StatesCount start (s.enforce cpu run rule now) := by
  cases hstate : s.maps.policy.states.lookup ⟨rule.ruleId, run.direction.toU8⟩ with
  | none =>
    unfold PacketSystem.enforce
    rw [KernelMaps.enforceOn_none hstate, hstate]
    refine h.of_same rfl fun key => ?_
    change enforcedOn (s.log ++ [.enforced cpu run rule none]) key = _
    rw [enforcedOn_concat]
    exact List.append_nil _
  | some state =>
    have hstates : (s.enforce cpu run rule now).maps.policy.states =
        s.maps.policy.states.insert ⟨rule.ruleId, run.direction.toU8⟩
          (enforceLocked rule run.skb.len now state).2 := by
      unfold PacketSystem.enforce
      rw [KernelMaps.enforceOn_some hstate]
      rfl
    have hlog : (s.enforce cpu run rule now).log =
        s.log ++ [.enforced cpu run rule (some (enforceLocked rule run.skb.len now state).1)] := by
      unfold PacketSystem.enforce
      rw [KernelMaps.enforceOn_some hstate, hstate]
      rfl
    intro key
    have hkey := h key
    rw [hstates, hlog, enforcedOn_concat]
    by_cases hbucket : (⟨rule.ruleId, run.direction.toU8⟩ : BucketKey) = key
    · subst hbucket
      split at hkey
      · exact nomatch hstate.symm.trans hkey
      · obtain ⟨state', hstate', hcounts⟩ := hkey
        obtain rfl : state = state' := Option.some.inj (hstate.symm.trans hstate')
        have hself : (PacketEvent.enforced cpu run rule (some
            (enforceLocked rule run.skb.len now state).1)).enforcedOn?
              ⟨rule.ruleId, run.direction.toU8⟩ =
                some (run, (enforceLocked rule run.skb.len now state).1) := if_pos rfl
        refine ⟨_, Finmap.lookup_insert _, ?_⟩
        rw [hself]
        exact hcounts.enforceLocked run rule now
    · have hother : (PacketEvent.enforced cpu run rule (some
          (enforceLocked rule run.skb.len now state).1)).enforcedOn? key = none := if_neg hbucket
      rw [Finmap.lookup_insert_of_ne _ (Ne.symm hbucket), hother, Option.toList_none, List.append_nil]
      exact hkey

/-- A step that posts an event for its CPU. -/
theorem DropsEnforced.post (h : ∀ cpu, DropsEnforced s cpu) {event : PacketEvent Cpu}
    (hlog : s'.log = s.log ++ [event]) (hothers : ∀ cpu ≠ event.cpu, s'.phase cpu = s.phase cpu)
    (horder : (s.phase event.cpu).dropped?.toList ++ event.enforcedDrop?.toList =
      event.shot?.toList ++ (s'.phase event.cpu).dropped?.toList) : ∀ cpu, DropsEnforced s' cpu := by
  intro cpu
  have hcpu := h cpu
  unfold DropsEnforced at *
  rw [hlog]
  by_cases hevent : cpu = event.cpu
  · subst hevent
    rw [filterMap_eventsOn_append, filterMap_eventsOn_append, hcpu, List.append_assoc, horder,
      List.append_assoc]
  · rw [eventsOn_append, if_neg (Ne.symm hevent), List.append_nil, hothers cpu hevent]
    exact hcpu

theorem DropsEnforced.of_same (h : ∀ cpu, DropsEnforced s cpu) (hlog : s'.log = s.log)
    (hphase : ∀ cpu, (s'.phase cpu).dropped? = (s.phase cpu).dropped?) :
    ∀ cpu, DropsEnforced s' cpu := by
  intro cpu
  unfold DropsEnforced
  rw [hlog, hphase]
  exact h cpu

theorem StatesCount.step (hwrites : ∀ p p', writes p p' → p'.states = p.states)
    (h : StatesCount start s) (hstep : PacketSystem.Step writes s s') : StatesCount start s' := by
  have hpost (event : PacketEvent Cpu) (hevent : ∀ key, event.enforcedOn? key = none)
      (key : BucketKey) : enforcedOn (s.log ++ [event]) key = enforcedOn s.log key := by
    rw [enforcedOn_concat, hevent, Option.toList_none, List.append_nil]
  cases hstep with
  | @arrive cpu skb direction observed hidle =>
    cases hp : parse (bpfCursor skb.data) with
    | ok packet =>
      rw [PacketSystem.arrive_ok hp]
      exact h.of_same rfl (hpost _ fun _ => rfl)
    | error unparsed =>
      rw [PacketSystem.arrive_error hp]
      refine h.of_same ?_ (hpost _ fun _ => rfl)
      change (ite _ _ _ : KernelMaps Cpu).policy.states = _
      split <;> rfl
  | @select cpu run hparsed =>
    unfold PacketSystem.select
    split <;> exact h.of_same rfl fun _ => rfl
  | enforce now hselected => exact h.enforce _ _ _ now
  | shoot hdropped => exact h.of_same rfl (hpost _ fun _ => rfl)
  | @account cpu run room hpassed =>
    refine h.of_same ?_ (hpost _ fun _ => rfl)
    change (s.maps.account cpu run.skb run.direction run.packet run.observed room).policy.states = _
    rw [KernelMaps.account_eq]
  | write policy hpolicy => exact h.of_same (hwrites _ _ hpolicy) fun _ => rfl
  | own owners => exact h.of_same rfl fun _ => rfl

theorem DropsEnforced.enforce (h : ∀ cpu, DropsEnforced s cpu) {cpu : Cpu} {run : PacketRun}
    {rule : RuleRef} (now : ℕ) (hselected : s.phase cpu = .selected run rule) :
    ∀ c, DropsEnforced (s.enforce cpu run rule now) c := by
  unfold PacketSystem.enforce
  cases hstate : s.maps.policy.states.lookup ⟨rule.ruleId, run.direction.toU8⟩ with
  | none =>
    rw [KernelMaps.enforceOn_none hstate]
    refine DropsEnforced.post h rfl (fun c hc => Function.update_of_ne hc ..) ?_
    change (s.phase cpu).dropped?.toList ++ [] =
      [] ++ (Function.update s.phase cpu _ cpu).dropped?.toList
    rw [hselected, Function.update_self]
    rfl
  | some state =>
    rw [KernelMaps.enforceOn_some hstate]
    generalize (enforceLocked rule run.skb.len now state).1 = verdict
    refine DropsEnforced.post h rfl (fun c hc => Function.update_of_ne hc ..) ?_
    change (s.phase cpu).dropped?.toList ++ _ =
      [] ++ (Function.update s.phase cpu _ cpu).dropped?.toList
    rw [hselected, Function.update_self]
    cases verdict <;> rfl

theorem DropsEnforced.step (h : ∀ cpu, DropsEnforced s cpu)
    (hstep : PacketSystem.Step writes s s') : ∀ cpu, DropsEnforced s' cpu := by
  cases hstep with
  | @arrive cpu skb direction observed hidle =>
    cases hp : parse (bpfCursor skb.data) with
    | ok packet =>
      rw [PacketSystem.arrive_ok hp]
      refine DropsEnforced.post h rfl (fun c hc => Function.update_of_ne hc ..) ?_
      change (s.phase cpu).dropped?.toList ++ [] =
        [] ++ (Function.update s.phase cpu _ cpu).dropped?.toList
      rw [hidle, Function.update_self]
      rfl
    | error unparsed =>
      rw [PacketSystem.arrive_error hp]
      exact DropsEnforced.post h rfl (fun c hc => rfl) (List.append_nil _)
  | @select cpu run hparsed =>
    have hgoto (phase : PacketPhase) (hphase : phase.dropped? = none) (c : Cpu) :
        ((s.goto cpu phase).phase c).dropped? = (s.phase c).dropped? := by
      change (Function.update s.phase cpu phase c).dropped? = _
      by_cases hc : c = cpu
      · subst hc
        rw [Function.update_self, hparsed, hphase]
        rfl
      · rw [Function.update_of_ne hc]
    unfold PacketSystem.select
    split
    · exact DropsEnforced.of_same h rfl (hgoto _ rfl)
    · exact DropsEnforced.of_same h rfl (hgoto _ rfl)
  | enforce now hselected => exact DropsEnforced.enforce h now hselected
  | @shoot cpu run hdropped =>
    refine DropsEnforced.post h rfl (fun c hc => Function.update_of_ne hc ..) ?_
    change (s.phase cpu).dropped?.toList ++ [] =
      [run] ++ (Function.update s.phase cpu _ cpu).dropped?.toList
    rw [hdropped, Function.update_self]
    rfl
  | @account cpu run room hpassed =>
    refine DropsEnforced.post h rfl (fun c hc => Function.update_of_ne hc ..) ?_
    change (s.phase cpu).dropped?.toList ++ [] =
      [] ++ (Function.update s.phase cpu _ cpu).dropped?.toList
    rw [hpassed, Function.update_self]
    rfl
  | write policy hpolicy => exact DropsEnforced.of_same h rfl fun _ => rfl
  | own owners => exact DropsEnforced.of_same h rfl fun _ => rfl

/-- While user space leaves the rule states alone, whatever else it writes: every rule state counts
the packets enforced on it on all CPUs, and of these the dropped ones; packets whose rule has no
state are never dropped; and on every CPU the packets that leave dropped are, in order, those that
were enforced with a drop, but for one that may be about to. -/
theorem rule_states_count_drops (hwrites : ∀ p p', writes p p' → p'.states = p.states)
    (hsound : ∀ key before, start.states.lookup key = some before → CountersSound before)
    (hr : (packetProgram Cpu start writes).Reachable s) :
    (∀ key, match start.states.lookup key with
      | none => s.maps.policy.states.lookup key = none
      | some before => ∃ state, s.maps.policy.states.lookup key = some state ∧
          before.CountsOf (enforcedOn s.log key) state) ∧
      ∀ cpu, (eventsOn s.log cpu).filterMap PacketEvent.enforcedDrop? =
        (eventsOn s.log cpu).filterMap PacketEvent.shot? ++ (s.phase cpu).dropped?.toList := by
  refine hr.invariant (P := fun s => StatesCount start s ∧ ∀ cpu, DropsEnforced s cpu) ?_ ?_
  · intro s₀ hinit
    constructor
    · intro key
      rw [hinit.policy_eq, hinit.log]
      split
      · next hnone => exact hnone
      · next before hbefore => exact ⟨before, hbefore, RuleState.countsOf_nil (hsound key before hbefore)⟩
    · intro cpu
      unfold DropsEnforced
      rw [hinit.log, hinit.phase]
      rfl
  · rintro s₁ s₂ ⟨hstates, hdrops⟩ hstep
    exact ⟨hstates.step hwrites hstep, DropsEnforced.step hdrops hstep⟩

end Run

section Example

/-- A block of every port of 10.0.0.1, in the outbound direction. -/
def blockingPolicy : PolicyMaps where
  config := { enabled := 1, endpointRules := 1 }
  states := (∅ : BpfMap BucketKey RuleState).insert ⟨7, Direction.outbound.toU8⟩ {}
  appCgroup := ⟨∅, ∅⟩
  appComm := ⟨∅, ∅⟩
  endpointExact := ⟨∅, (∅ : BpfMap EndpointMatchKey RuleRef).insert
    ⟨ipv4Storage (.new 10 0 0 1), 0⟩ ⟨7, RuleAction.block.toU8⟩⟩
  endpointCidr := ⟨∅, ∅⟩

def blockingSystem : PacketSystem Bool :=
  idleSystem.withMaps { idleSystem.maps with policy := blockingPolicy }

theorem blockingSystem_fresh : PacketSystem.Fresh blockingPolicy blockingSystem :=
  ⟨rfl, rfl, rfl, rfl, rfl, rfl, rfl⟩

theorem blocked_datagram_counts :
    ∃ s, (packetProgram Bool blockingPolicy fun p p' => p'.states = p.states).Reachable s ∧
      (∃ state, s.maps.policy.states.lookup ⟨7, Direction.outbound.toU8⟩ = some state ∧
        RuleState.CountsOf {} (enforcedOn s.log ⟨7, Direction.outbound.toU8⟩) state) ∧
      (s.maps.stats true).policyDroppedPackets = 1 := by
  obtain ⟨s, hsteps, hmaps, -⟩ := @PacketSystem.process_steps Bool _ blockingSystem true
    (fun p p' => p'.states = p.states) rfl datagramFrame .outbound 5 6 ⟨some [], true, true⟩
  have hr := reachable_of_steps (.init blockingSystem_fresh) hsteps
  have hlookup : blockingPolicy.states.lookup ⟨7, Direction.outbound.toU8⟩ = some {} :=
    Finmap.lookup_insert _
  have hcounts := (rule_states_count_drops (fun _ _ h => h) ?_ hr).1 ⟨7, Direction.outbound.toU8⟩
  · rw [hlookup] at hcounts
    refine ⟨s, hr, hcounts, ?_⟩
    rw [hmaps]
    decide +kernel
  · intro key before hbefore
    unfold blockingPolicy at hbefore
    by_cases hkey : key = ⟨7, Direction.outbound.toU8⟩
    · subst hkey
      obtain rfl := Option.some.inj ((Finmap.lookup_insert _).symm.trans hbefore)
      exact ⟨by decide, by decide, le_rfl, le_rfl⟩
    · rw [Finmap.lookup_insert_of_ne _ hkey] at hbefore
      exact absurd hbefore (by simp)

end Example

end ZimaScope
