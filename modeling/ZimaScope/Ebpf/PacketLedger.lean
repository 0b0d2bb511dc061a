import Mathlib.Algebra.BigOperators.Group.List.Lemmas
import ZimaScope.Collector.Health
import ZimaScope.Ebpf.Interleaving
import ZimaScope.Lib.History

/-! # What the kernel counters count

The counters of a CPU against the packets that the CPU has taken in and let go. They hold
whatever happens on the other CPUs, and whatever user space writes.
-/

namespace ZimaScope

/-- A counter as user space reads it; the owner program keeps two of them, and nothing counts
evictions. -/
def PacketStats.get (stats : PacketStats) : KernelCounters
  | .packetsSeen => stats.packetsSeen
  | .packetsParsed => stats.packetsParsed
  | .parseFailures => stats.parseFailures
  | .mapUpdateFailures => stats.mapUpdateFailures
  | .flowEvictions | .ownerEventsInserted | .ownerEventsDropped => 0
  | .domainEventsEmitted => stats.domainEventsEmitted
  | .domainEventsDropped => stats.domainEventsDropped
  | .serviceEventsEmitted => stats.serviceEventsEmitted
  | .serviceEventsDropped => stats.serviceEventsDropped
  | .policyDroppedPackets => stats.policyDroppedPackets
  | .policyDroppedBytes => stats.policyDroppedBytes
  | .policyMissingState => stats.policyMissingState

def KernelCounter.once (counter : KernelCounter) : KernelCounters := Pi.single counter 1

def Sampled.counts {α : Type} (emitted dropped : KernelCounter) : Sampled α → KernelCounters
  | skipped => 0
  | Sampled.dropped => dropped.once
  | Sampled.emitted _ => emitted.once

namespace PacketEvent

variable {Cpu : Type} [DecidableEq Cpu]

def cpu : PacketEvent Cpu → Cpu
  | arrived cpu _ | enforced cpu _ _ _ | shot cpu _ | accounted cpu _ _ _ _ _ => cpu

/-- What an event stands for in the counters of its CPU. -/
def amounts : PacketEvent Cpu → KernelCounters
  | arrived _ (.ok _) => KernelCounter.packetsSeen.once + KernelCounter.packetsParsed.once
  | arrived _ (.error unparsed) =>
    KernelCounter.packetsSeen.once + if unparsed.isFailure then KernelCounter.parseFailures.once else 0
  | enforced _ _ _ verdict => if verdict.isNone then KernelCounter.policyMissingState.once else 0
  | shot _ run => KernelCounter.policyDroppedPackets.once + Pi.single .policyDroppedBytes run.skb.len
  | accounted _ _ recorded _ service domain =>
    service.counts .serviceEventsEmitted .serviceEventsDropped +
      if recorded then domain.counts .domainEventsEmitted .domainEventsDropped
      else KernelCounter.mapUpdateFailures.once

/-- A packet that is counted as parsed. -/
def parsed? : PacketEvent Cpu → Option PacketRun
  | arrived _ (.ok run) => some run
  | _ => none

/-- A packet that leaves the program, with the verdict on it. -/
def left? : PacketEvent Cpu → Option (PacketRun × Verdict)
  | shot _ run => some (run, .drop)
  | accounted _ run _ _ _ _ => some (run, .pass)
  | _ => none

def recorded? : PacketEvent Cpu → Option PacketRun
  | accounted _ run true _ _ _ => some run
  | _ => none

end PacketEvent

section Log

variable {Cpu : Type} [DecidableEq Cpu] (log : List (PacketEvent Cpu)) (cpu : Cpu)

/-- The events of a CPU. -/
def eventsOn : List (PacketEvent Cpu) := log.filter fun event => event.cpu = cpu

def totalOn : KernelCounters := ((eventsOn log cpu).map PacketEvent.amounts).sum

def parsedOn : List PacketRun := (eventsOn log cpu).filterMap PacketEvent.parsed?

def leftOn : List (PacketRun × Verdict) := (eventsOn log cpu).filterMap PacketEvent.left?

def recordedOn : List PacketRun := (eventsOn log cpu).filterMap PacketEvent.recorded?

end Log

/-- The counters and the packets of a CPU. -/
structure Balanced {Cpu : Type} [DecidableEq Cpu] (s : PacketSystem Cpu) (cpu : Cpu) : Prop where
  counters : ∀ counter, (s.maps.stats cpu).get counter = min (totalOn s.log cpu counter) u64Max
  inOrder : parsedOn s.log cpu = (leftOn s.log cpu).map Prod.fst ++ (s.phase cpu).run?.toList

/-! ## Counting -/

/-- What a counting step adds to the counters. -/
def PacketStats.Adds (old new : PacketStats) (amounts : KernelCounters) : Prop :=
  ∀ counter, new.get counter = min (old.get counter + amounts counter) u64Max

namespace PacketStats

variable {old mid new : PacketStats} {amounts amounts' : KernelCounters}

/-- All counters fit a `u64`. -/
def Fits (stats : PacketStats) : Prop := ∀ counter, stats.get counter ≤ u64Max

theorem Adds.fits (h : old.Adds new amounts) : new.Fits := by
  intro counter
  rw [h counter]
  exact min_le_right _ _

theorem Fits.adds_zero (h : old.Fits) : old.Adds old 0 := by
  intro counter
  rw [Pi.zero_apply, Nat.add_zero, min_eq_left (h counter)]

theorem Adds.trans (h : old.Adds mid amounts) (h' : mid.Adds new amounts') :
    old.Adds new (amounts + amounts') := by
  intro counter
  rw [h' counter, h counter, Pi.add_apply]
  omega

theorem Fits.recordSeen (h : old.Fits) : old.Adds old.recordSeen KernelCounter.packetsSeen.once := by
  intro counter
  have hc := h counter
  cases counter <;> simp_all [KernelCounter.once, get, PacketStats.recordSeen, satAdd]

theorem Fits.recordSeenAndParsed (h : old.Fits) : old.Adds old.recordSeenAndParsed
    (KernelCounter.packetsSeen.once + KernelCounter.packetsParsed.once) := by
  intro counter
  have hc := h counter
  cases counter <;> simp_all [KernelCounter.once, get, PacketStats.recordSeenAndParsed, satAdd]

theorem Fits.recordParseFailure (h : old.Fits) :
    old.Adds old.recordParseFailure KernelCounter.parseFailures.once := by
  intro counter
  have hc := h counter
  cases counter <;> simp_all [KernelCounter.once, get, PacketStats.recordParseFailure, satAdd]

theorem Fits.recordMapUpdateFailure (h : old.Fits) :
    old.Adds old.recordMapUpdateFailure KernelCounter.mapUpdateFailures.once := by
  intro counter
  have hc := h counter
  cases counter <;> simp_all [KernelCounter.once, get, PacketStats.recordMapUpdateFailure, satAdd]

theorem Fits.recordPolicyDrop (h : old.Fits) (packetLen : ℕ) : old.Adds (old.recordPolicyDrop packetLen)
    (KernelCounter.policyDroppedPackets.once + Pi.single .policyDroppedBytes packetLen) := by
  intro counter
  have hc := h counter
  cases counter <;> simp_all [KernelCounter.once, get, PacketStats.recordPolicyDrop, satAdd]

theorem Fits.recordService (h : old.Fits) (service : Sampled ServiceSample) :
    old.Adds (old.recordService service)
      (service.counts .serviceEventsEmitted .serviceEventsDropped) := by
  intro counter
  have hc := h counter
  cases service <;> cases counter <;>
    simp_all [KernelCounter.once, get, PacketStats.recordService, Sampled.counts, satAdd]

theorem Fits.recordDomain (h : old.Fits) (domain : Sampled DomainSample) :
    old.Adds (old.recordDomain domain)
      (domain.counts .domainEventsEmitted .domainEventsDropped) := by
  intro counter
  have hc := h counter
  cases domain <;> cases counter <;>
    simp_all [KernelCounter.once, get, PacketStats.recordDomain, Sampled.counts, satAdd]

theorem Fits.missingState (h : old.Fits) :
    old.Adds { old with policyMissingState := satAdd old.policyMissingState 1 }
      KernelCounter.policyMissingState.once := by
  intro counter
  have hc := h counter
  cases counter <;> simp_all [KernelCounter.once, get, satAdd]

end PacketStats

section Append

variable {Cpu : Type} [DecidableEq Cpu] (log : List (PacketEvent Cpu)) (event : PacketEvent Cpu)

theorem eventsOn_append (cpu : Cpu) :
    eventsOn (log ++ [event]) cpu = eventsOn log cpu ++ if event.cpu = cpu then [event] else [] := by
  unfold eventsOn
  rw [List.filter_append, List.filter_singleton]
  simp

theorem totalOn_append : totalOn (log ++ [event]) event.cpu = totalOn log event.cpu + event.amounts := by
  unfold totalOn
  rw [eventsOn_append, if_pos rfl, List.map_append, List.sum_append, List.map_singleton,
    List.sum_singleton]

theorem filterMap_eventsOn_append {β : Type} (f : PacketEvent Cpu → Option β) :
    (eventsOn (log ++ [event]) event.cpu).filterMap f =
      (eventsOn log event.cpu).filterMap f ++ (f event).toList := by
  rw [eventsOn_append, if_pos rfl, History.filterMap_concat]

end Append

namespace PacketSystem

variable {Cpu : Type} [DecidableEq Cpu] {s s' : PacketSystem Cpu} {event : PacketEvent Cpu}
  {writes : PolicyMaps → PolicyMaps → Prop}

/-- A step that posts an event for its CPU. -/
theorem balanced_post (hb : ∀ cpu, Balanced s cpu) (hlog : s'.log = s.log ++ [event])
    (hothers : ∀ cpu ≠ event.cpu, s'.maps.stats cpu = s.maps.stats cpu ∧ s'.phase cpu = s.phase cpu)
    (hadds : (s.maps.stats event.cpu).Fits →
      (s.maps.stats event.cpu).Adds (s'.maps.stats event.cpu) event.amounts)
    (horder : (s.phase event.cpu).run?.toList ++ event.parsed?.toList =
      event.left?.toList.map Prod.fst ++ (s'.phase event.cpu).run?.toList) :
    ∀ cpu, Balanced s' cpu := by
  intro cpu
  by_cases hcpu : cpu = event.cpu
  · subst hcpu
    obtain ⟨hcounters, hin⟩ := hb event.cpu
    have hfits : (s.maps.stats event.cpu).Fits := by
      intro counter
      rw [hcounters counter]
      exact min_le_right _ _
    constructor
    · intro counter
      rw [hadds hfits counter, hcounters counter, hlog, totalOn_append, Pi.add_apply]
      omega
    · unfold parsedOn leftOn at *
      rw [hlog, filterMap_eventsOn_append, filterMap_eventsOn_append, hin, List.append_assoc, horder,
        List.map_append, List.append_assoc]
  · obtain ⟨hstats, hphase⟩ := hothers cpu hcpu
    obtain ⟨hcounters, hin⟩ := hb cpu
    have hevents : eventsOn s'.log cpu = eventsOn s.log cpu := by
      rw [hlog, eventsOn_append, if_neg (Ne.symm hcpu), List.append_nil]
    constructor
    · intro counter
      rw [hstats, hcounters counter]
      unfold totalOn
      rw [hevents]
    · unfold parsedOn leftOn at *
      rw [hevents, hphase, hin]

/-- A step that posts nothing. -/
theorem balanced_silent (hb : ∀ cpu, Balanced s cpu) (hlog : s'.log = s.log)
    (hstats : s'.maps.stats = s.maps.stats)
    (hrun : ∀ cpu, (s'.phase cpu).run? = (s.phase cpu).run?) : ∀ cpu, Balanced s' cpu := by
  intro cpu
  obtain ⟨hcounters, hin⟩ := hb cpu
  constructor
  · rw [hlog, hstats]
    exact hcounters
  · rw [hlog, hrun]
    exact hin

theorem stats_onStats (maps : KernelMaps Cpu) (cpu : Cpu) (f : PacketStats → PacketStats) :
    (maps.onStats cpu f).stats cpu = f (maps.stats cpu) := Function.update_self ..

section Steps

variable {cpu : Cpu} {run : PacketRun} (hb : ∀ cpu, Balanced s cpu)
include hb

theorem balanced_arrive (skb : Skb) (direction : Direction) (observed : ℕ)
    (hidle : s.phase cpu = .idle) : ∀ c, Balanced (s.arrive cpu skb direction observed) c := by
  cases hp : parse (bpfCursor skb.data) with
  | ok packet =>
    rw [arrive_ok hp]
    refine balanced_post hb rfl ?_ (fun hfits => ?_) ?_
    · intro c hc
      exact ⟨Function.update_of_ne hc .., Function.update_of_ne hc ..⟩
    · change (s.maps.stats cpu).Adds (Function.update s.maps.stats cpu _ cpu) _
      rw [Function.update_self]
      exact hfits.recordSeenAndParsed
    · change (s.phase cpu).run?.toList ++ _ = [] ++ (Function.update s.phase cpu _ cpu).run?.toList
      rw [hidle, Function.update_self]
      rfl
  | error unparsed =>
    rw [arrive_error hp]
    refine balanced_post hb rfl ?_ (fun hfits => ?_) ?_
    · intro c hc
      refine ⟨?_, rfl⟩
      change (ite _ _ _ : KernelMaps Cpu).stats c = _
      split
      · exact (Function.update_of_ne hc ..).trans (Function.update_of_ne hc ..)
      · exact Function.update_of_ne hc ..
    · have hseen := hfits.recordSeen
      change (s.maps.stats cpu).Adds ((ite _ _ _ : KernelMaps Cpu).stats cpu)
        (KernelCounter.packetsSeen.once + ite _ _ _)
      split
      · rw [stats_onStats, stats_onStats]
        exact hseen.trans hseen.fits.recordParseFailure
      · change (s.maps.stats cpu).Adds (Function.update s.maps.stats cpu _ cpu) _
        rw [Function.update_self, add_zero]
        exact hseen
    · change (s.phase cpu).run?.toList ++ [] = [] ++ (s.phase cpu).run?.toList
      rw [List.append_nil, List.nil_append]

theorem balanced_select (hparsed : s.phase cpu = .parsed run) :
    ∀ c, Balanced (s.select cpu run) c := by
  have hgoto (phase : PacketPhase) (hrun : phase.run? = some run) (c : Cpu) :
      ((s.goto cpu phase).phase c).run? = (s.phase c).run? := by
    change (Function.update s.phase cpu phase c).run? = _
    by_cases hc : c = cpu
    · subst hc
      rw [Function.update_self, hparsed, hrun]
      rfl
    · rw [Function.update_of_ne hc]
  unfold select
  split
  · exact balanced_silent hb rfl rfl (hgoto _ rfl)
  · exact balanced_silent hb rfl rfl (hgoto _ rfl)

theorem balanced_enforce {rule : RuleRef} (now : ℕ) (hselected : s.phase cpu = .selected run rule) :
    ∀ c, Balanced (s.enforce cpu run rule now) c := by
  unfold enforce
  cases hstate : s.maps.policy.states.lookup ⟨rule.ruleId, run.direction.toU8⟩ with
  | none =>
    rw [KernelMaps.enforceOn_none hstate]
    refine balanced_post hb rfl ?_ (fun hfits => ?_) ?_
    · intro c hc
      exact ⟨Function.update_of_ne hc .., Function.update_of_ne hc ..⟩
    · change (s.maps.stats cpu).Adds (Function.update s.maps.stats cpu _ cpu) _
      rw [Function.update_self]
      exact hfits.missingState
    · change (s.phase cpu).run?.toList ++ [] = [] ++ (Function.update s.phase cpu _ cpu).run?.toList
      rw [hselected, Function.update_self]
      rfl
  | some state =>
    rw [KernelMaps.enforceOn_some hstate]
    refine balanced_post hb rfl ?_ (fun hfits => ?_) ?_
    · intro c hc
      exact ⟨rfl, Function.update_of_ne hc ..⟩
    · exact hfits.adds_zero
    · change (s.phase cpu).run?.toList ++ [] = [] ++ (Function.update s.phase cpu _ cpu).run?.toList
      rw [hselected, Function.update_self]
      cases (enforceLocked rule run.skb.len now state).1 <;> rfl

theorem balanced_shoot (hdropped : s.phase cpu = .dropped run) :
    ∀ c, Balanced (s.shoot cpu run) c := by
  refine balanced_post hb rfl ?_ (fun hfits => ?_) ?_
  · intro c hc
    exact ⟨Function.update_of_ne hc .., Function.update_of_ne hc ..⟩
  · change (s.maps.stats cpu).Adds (Function.update s.maps.stats cpu _ cpu) _
    rw [Function.update_self]
    exact hfits.recordPolicyDrop _
  · change (s.phase cpu).run?.toList ++ [] = [run] ++ (Function.update s.phase cpu _ cpu).run?.toList
    rw [hdropped, Function.update_self]
    rfl

theorem balanced_account (room : Room) (hpassed : s.phase cpu = .passed run) :
    ∀ c, Balanced (s.account cpu run room) c := by
  have hkey : flowKey run.packet.toParsedFlow run.direction.toU8 run.skb.ifindex = run.key := rfl
  unfold account
  simp only [KernelMaps.account_eq, hkey]
  generalize s.maps.updateFlow cpu run.skb run.key run.packet run.observed room = updated
  obtain ⟨recorded, service, maps⟩ := updated
  refine balanced_post hb rfl ?_ (fun hfits => ?_) ?_
  · intro c hc
    exact ⟨Function.update_of_ne hc .., Function.update_of_ne hc ..⟩
  · have hservice := hfits.recordService service
    change (s.maps.stats cpu).Adds (Function.update s.maps.stats cpu _ cpu)
      (service.counts _ _ + ite (recorded = true) _ _)
    rw [Function.update_self]
    cases recorded with
    | true => exact hservice.trans (hservice.fits.recordDomain _)
    | false => exact hservice.trans hservice.fits.recordMapUpdateFailure
  · change (s.phase cpu).run?.toList ++ [] = [run] ++ (Function.update s.phase cpu _ cpu).run?.toList
    rw [hpassed, Function.update_self]
    rfl

theorem balanced_step (hstep : Step writes s s') : ∀ c, Balanced s' c := by
  cases hstep with
  | arrive skb direction observed hidle => exact balanced_arrive hb skb direction observed hidle
  | select hparsed => exact balanced_select hb hparsed
  | enforce now hselected => exact balanced_enforce hb now hselected
  | shoot hdropped => exact balanced_shoot hb hdropped
  | account room hpassed => exact balanced_account hb room hpassed
  | write policy h => exact balanced_silent hb rfl rfl fun _ => rfl
  | own owners => exact balanced_silent hb rfl rfl fun _ => rfl

end Steps

theorem Fresh.balanced {policy : PolicyMaps} (h : Fresh policy s) (cpu : Cpu) : Balanced s cpu := by
  have hevents : eventsOn s.log cpu = [] := by
    rw [h.log]
    rfl
  constructor
  · intro counter
    unfold totalOn
    rw [hevents, h.stats]
    cases counter <;> rfl
  · unfold parsedOn leftOn
    rw [hevents, h.phase]
    rfl

end PacketSystem

/-! ## The ledger -/

namespace PacketEvent

variable {Cpu : Type} (event : PacketEvent Cpu)

theorem amounts_packetsParsed : event.amounts .packetsParsed = event.parsed?.toList.length := by
  rcases event with ⟨cpu, unparsed | run⟩ | ⟨cpu, run, rule, verdict⟩ | ⟨cpu, run⟩ |
    ⟨cpu, run, recorded, evicted, service, domain⟩
  · cases unparsed <;> rfl
  · rfl
  · cases verdict <;> rfl
  · rfl
  · cases recorded <;> cases service <;> cases domain <;> rfl

/-- A packet leaves dropped by a rule, refused by the Flow map, or recorded. -/
theorem length_left? : event.left?.toList.length = event.amounts .policyDroppedPackets +
    event.amounts .mapUpdateFailures + event.recorded?.toList.length := by
  rcases event with ⟨cpu, unparsed | run⟩ | ⟨cpu, run, rule, verdict⟩ | ⟨cpu, run⟩ |
    ⟨cpu, run, recorded, evicted, service, domain⟩
  · cases unparsed <;> rfl
  · rfl
  · cases verdict <;> rfl
  · rfl
  · cases recorded <;> cases service <;> cases domain <;> rfl

end PacketEvent

theorem length_filterMap_eq_sum {α β : Type} (f : α → Option β) (l : List α) :
    (l.filterMap f).length = (l.map fun a => (f a).toList.length).sum := by
  induction l with
  | nil => rfl
  | cons a l ih =>
    rw [List.map_cons, List.sum_cons, ← ih]
    cases h : f a with
    | none => rw [List.filterMap_cons_none h, Option.toList_none, List.length_nil, Nat.zero_add]
    | some b =>
      rw [List.filterMap_cons_some h, List.length_cons, Option.toList_some, List.length_singleton,
        Nat.add_comm]

section Totals

variable {Cpu : Type} [DecidableEq Cpu] (log : List (PacketEvent Cpu)) (cpu : Cpu)

theorem totalOn_eq_sum (counter : KernelCounter) : totalOn log cpu counter =
    ((eventsOn log cpu).map fun event => event.amounts counter).sum := by
  unfold totalOn
  induction eventsOn log cpu with
  | nil => rfl
  | cons event events ih => rw [List.map_cons, List.sum_cons, Pi.add_apply, ih, List.map_cons,
      List.sum_cons]

theorem totalOn_packetsParsed : totalOn log cpu .packetsParsed = (parsedOn log cpu).length := by
  unfold parsedOn
  rw [totalOn_eq_sum, length_filterMap_eq_sum]
  simp only [PacketEvent.amounts_packetsParsed]

theorem length_leftOn : (leftOn log cpu).length = totalOn log cpu .policyDroppedPackets +
    totalOn log cpu .mapUpdateFailures + (recordedOn log cpu).length := by
  unfold leftOn recordedOn
  rw [totalOn_eq_sum, totalOn_eq_sum, length_filterMap_eq_sum, length_filterMap_eq_sum]
  simp only [PacketEvent.length_left?, List.sum_map_add]

end Totals

/-- On every CPU, at every moment, whatever the other CPUs do and user space writes: the counters
are the totals of what happened to its packets, up to the range of a `u64`; the packets that were
counted as parsed have left in their order, but for one that may be under way; and each of them
was dropped by a rule, recorded under its Flow, or counted as a failure. -/
theorem kernel_counters_balance {Cpu : Type} [DecidableEq Cpu] {policy : PolicyMaps}
    {writes : PolicyMaps → PolicyMaps → Prop} {s : PacketSystem Cpu}
    (hr : (packetProgram Cpu policy writes).Reachable s) (cpu : Cpu) :
    (∀ counter, (s.maps.stats cpu).get counter = min (totalOn s.log cpu counter) u64Max) ∧
      parsedOn s.log cpu = (leftOn s.log cpu).map Prod.fst ++ (s.phase cpu).run?.toList ∧
      totalOn s.log cpu .packetsParsed = totalOn s.log cpu .policyDroppedPackets +
        totalOn s.log cpu .mapUpdateFailures + (recordedOn s.log cpu).length +
          (s.phase cpu).run?.toList.length := by
  have hb : ∀ c, Balanced s c := by
    refine hr.invariant (P := fun s => ∀ c, Balanced s c) ?_ ?_
    · intro s₀ hinit
      exact hinit.balanced
    · intro s₁ s₂ hb hstep
      exact PacketSystem.balanced_step hb hstep
  obtain ⟨hcounters, horder⟩ := hb cpu
  refine ⟨hcounters, horder, ?_⟩
  have hlength := congrArg List.length horder
  rwa [List.length_append, List.length_map, ← totalOn_packetsParsed, length_leftOn] at hlength

section Example

/-- A frame that ends before its EtherType. -/
def runtFrame : Skb := ⟨[1, 2, 3], 3, 2⟩

theorem runt_frame_balances :
    (idleSystem.arrive true runtFrame .inbound 7).maps.stats true =
        { packetsSeen := 1, parseFailures := 1 } ∧
      parsedOn (idleSystem.arrive true runtFrame .inbound 7).log true =
        (leftOn (idleSystem.arrive true runtFrame .inbound 7).log true).map Prod.fst ++ [] := by
  have hr : (packetProgram Bool .empty fun _ _ => False).Reachable
      (idleSystem.arrive true runtFrame .inbound 7) :=
    .step (.init idleSystem_fresh) (.arrive runtFrame .inbound 7 rfl)
  exact ⟨rfl, (kernel_counters_balance hr true).2.1⟩

end Example

end ZimaScope
