import Mathlib.Data.List.Induction
import Mathlib.Data.List.Sort
import ZimaScope.Common.Observation

/-! # Health and observation gaps

What a poll reports about its own reads and about the interfaces: a gap is open from the
first failure until the same thing succeeds again.
-/

namespace ZimaScope

/-- `kernel_counters!`. -/
inductive KernelCounter
  | packetsSeen | packetsParsed | parseFailures | mapUpdateFailures | flowEvictions
  | domainEventsEmitted | domainEventsDropped | serviceEventsEmitted | serviceEventsDropped
  | ownerEventsInserted | ownerEventsDropped | policyDroppedPackets | policyDroppedBytes
  | policyMissingState
  deriving DecidableEq, Repr

def KernelCounter.all : List KernelCounter :=
  [.packetsSeen, .packetsParsed, .parseFailures, .mapUpdateFailures, .flowEvictions,
    .domainEventsEmitted, .domainEventsDropped, .serviceEventsEmitted, .serviceEventsDropped,
    .ownerEventsInserted, .ownerEventsDropped, .policyDroppedPackets, .policyDroppedBytes,
    .policyMissingState]

abbrev KernelCounters := KernelCounter → ℕ

/-- A decrease means the kernel object was reloaded. -/
def KernelCounters.isMonotonicFrom (current previous : KernelCounters) : Bool :=
  KernelCounter.all.all fun counter => previous counter ≤ current counter

def KernelCounters.deltaFrom (current previous : KernelCounters) : KernelCounters :=
  fun counter => current counter - previous counter

inductive CollectorState | running | degraded | stopped
  deriving DecidableEq, Repr

structure InterfaceHealth where
  ifindex : UInt32
  name : String
  ingressAttached : Bool
  egressAttached : Bool
  lastError : Option String
  deriving DecidableEq, Repr

def InterfaceHealth.isAttached (interface : InterfaceHealth) : Bool :=
  interface.ingressAttached && interface.egressAttached

structure ApplicationHealth where
  attached : Bool := false
  udpAttached : Bool := false
  lastError : Option String := none
  deriving DecidableEq, Repr

inductive GapReason
  | interfaceDetached (ifindex : UInt32)
  | mapReadFailed
  deriving DecidableEq, Repr

/-- A known interval without complete metadata. -/
structure ObservationGap where
  startedAt : SystemTime
  endedAt : Option SystemTime
  reason : GapReason
  deriving DecidableEq, Repr

structure CollectorHealth where
  state : CollectorState
  attachedInterfaces : List InterfaceHealth
  mapEntries : ℕ
  mapCapacity : ℕ
  kernel : KernelCounters
  gaps : List ObservationGap
  application : ApplicationHealth

inductive GapKey
  | flowMapReadFailed
  | ownerMapReadFailed
  | kernelStatsReadFailed
  | domainEventsReadFailed
  | serviceEventsReadFailed
  | interfaceDetached (ifindex : UInt32)
  deriving DecidableEq, Repr

def GapKey.reason : GapKey → GapReason
  | .interfaceDetached ifindex => .interfaceDetached ifindex
  | _ => .mapReadFailed

structure HealthTracker where
  openGaps : HashMap GapKey ObservationGap := ∅
  closedGaps : List ObservationGap := []
  lastKernel : KernelCounters := fun _ => 0
  kernelSeen : Bool := false
  lastDelta : KernelCounters := fun _ => 0

namespace HealthTracker

section Gaps

variable (tracker : HealthTracker) (key : GapKey) (time : SystemTime)

def openGap : HealthTracker :=
  if key ∈ tracker.openGaps then tracker
  else { tracker with openGaps := tracker.openGaps.insert key ⟨time, none, key.reason⟩ }

def closeGap : HealthTracker :=
  match AList.lookup key tracker.openGaps with
  | none => tracker
  | some gap =>
    { tracker with
      openGaps := tracker.openGaps.erase key
      closedGaps := tracker.closedGaps ++ [{ gap with endedAt := some time }] }

/-- Closes the gap when a read succeeds and opens it when it fails. -/
def observe {α : Type} (result : Option α) : HealthTracker :=
  if result.isSome then tracker.closeGap key time else tracker.openGap key time

end Gaps

/-- Takes the counters' increase since the previous poll. -/
def recordKernel (tracker : HealthTracker) (current : KernelCounters) : HealthTracker :=
  { tracker with
    lastKernel := current
    kernelSeen := true
    lastDelta :=
      if tracker.kernelSeen && current.isMonotonicFrom tracker.lastKernel then
        current.deltaFrom tracker.lastKernel
      else current }

/-- Closed gaps are reported once. -/
def snapshot (tracker : HealthTracker) (state : CollectorState) (interfaces : List InterfaceHealth)
    (mapEntries mapCapacity : ℕ) (application : ApplicationHealth) :
    CollectorHealth × HealthTracker :=
  ({ state
     attachedInterfaces := interfaces
     mapEntries
     mapCapacity
     kernel := tracker.lastDelta
     gaps := tracker.openGaps.entries.map (·.2) ++ tracker.closedGaps
     application }, { tracker with closedGaps := [] })

/-- One interface that the source reports. -/
def visitInterface (time : SystemTime) (tracker : HealthTracker) (interface : InterfaceHealth) :
    HealthTracker :=
  let key := .interfaceDetached interface.ifindex
  if interface.isAttached then tracker.closeGap key time else tracker.openGap key time

end HealthTracker

/-- What the kernel source answers in one poll: each read fails or succeeds. -/
structure SourcePoll where
  collectedAt : SystemTime
  services : Option Unit
  owners : Option ℕ
  flows : Option ℕ
  domains : Option Unit
  stats : Option KernelCounters
  interfaces : List InterfaceHealth
  application : ApplicationHealth := {}

/-- What a poll keeps for its health. -/
structure HealthCore where
  health : HealthTracker := {}
  mapEntries : ℕ := 0
  mapCapacity : ℕ
  ownerEntries : ℕ := 0

section Poll

variable (core : HealthCore) (poll : SourcePoll)

/-- The gaps after the reads of a poll. -/
def SourcePoll.reads (tracker : HealthTracker) : HealthTracker :=
  let tracker := tracker.observe .serviceEventsReadFailed poll.collectedAt poll.services
  let tracker := tracker.observe .ownerMapReadFailed poll.collectedAt poll.owners
  let tracker := tracker.observe .flowMapReadFailed poll.collectedAt poll.flows
  let tracker := tracker.observe .domainEventsReadFailed poll.collectedAt poll.domains
  let tracker := tracker.observe .kernelStatsReadFailed poll.collectedAt poll.stats
  match poll.stats with
  | none => tracker
  | some stats => tracker.recordKernel stats

/-- Something failed in this very poll. -/
def SourcePoll.degraded : Bool :=
  poll.services.isNone || poll.owners.isNone || poll.flows.isNone || poll.domains.isNone ||
    poll.stats.isNone || poll.interfaces.any fun interface => !interface.isAttached

/-- `CollectorCore::poll_once`, of which only the health of the batch is kept. -/
def HealthCore.pollOnce : CollectorHealth × HealthCore :=
  let mapEntries := poll.flows.getD core.mapEntries
  let tracker := poll.interfaces.foldl (HealthTracker.visitInterface poll.collectedAt)
    (poll.reads core.health)
  let state := if poll.degraded || tracker.openGaps.entries ≠ [] then .degraded else .running
  let snapshot := tracker.snapshot state poll.interfaces mapEntries core.mapCapacity poll.application
  (snapshot.1, {
    health := snapshot.2
    mapEntries
    mapCapacity := core.mapCapacity
    ownerEntries := poll.owners.getD core.ownerEntries })

def HealthCore.runPolls (polls : List SourcePoll) : HealthCore :=
  polls.foldl (fun core poll => (core.pollOnce poll).2) core

end Poll

/-! ## The attachment list -/

inductive TcAttachType | ingress | egress
  deriving DecidableEq, Repr

/-- An interface of the boundary; a hook is there or not. -/
structure AttachedInterface where
  ifindex : UInt32
  name : String
  tcx : Bool
  ingress : Bool
  egress : Bool
  lastError : Option String

namespace AyaKernelSource

section Attach

-- what the kernel answers to an attach: an error or nothing
variable (attach : UInt32 → Option String) (tcx : Bool)

def attachOne (interface : UInt32 × String) : AttachedInterface :=
  match attach interface.1 with
  | none => ⟨interface.1, interface.2, tcx, true, true, none⟩
  | some error => ⟨interface.1, interface.2, tcx, false, false, some error⟩

/-- The attachment list after the boundary was resolved to these interfaces. -/
def reconcile (boundary : List (UInt32 × String)) (attached : List AttachedInterface) :
    List AttachedInterface :=
  let current : HashMap UInt32 AttachedInterface :=
    attached.foldl (fun current interface => current.insert interface.ifindex interface) ∅
  let current := current.retain fun ifindex _ => boundary.any fun wanted => wanted.1 = ifindex
  let current := boundary.foldl (fun current wanted =>
    if (AList.lookup wanted.1 current).any fun interface => interface.ingress && interface.egress then
      current
    else current.insert wanted.1 (attachOne attach tcx wanted)) current
  (current.entries.map (·.2)).insertionSort fun a b => a.ifindex ≤ b.ifindex

end Attach

/-- What the source reports of an interface; `verify` queries the hooks in the kernel. -/
def interfaceHealth (verify : String → TcAttachType → Except String Bool)
    (attached : AttachedInterface) : InterfaceHealth :=
  let health : InterfaceHealth := ⟨attached.ifindex, attached.name, false, false, attached.lastError⟩
  if !attached.tcx then
    { health with
      ingressAttached := attached.ingress
      egressAttached := attached.egress }
  else if !attached.ingress || !attached.egress then health
  else
    let ingress := verify attached.name .ingress
    let egress := verify attached.name .egress
    let error : Except String Bool → String → String → Option String := fun
      | .ok true, _, _ => none
      | .ok false, gone, _ => some gone
      | .error error, _, query => some (query ++ error)
    { health with
      ingressAttached := ingress.toOption.getD false
      egressAttached := egress.toOption.getD false
      lastError := (error ingress "ingress program is no longer attached" "query ingress tcx: ").or
        (error egress "egress program is no longer attached" "query egress tcx: ") }

def attachmentHealth (verify : String → TcAttachType → Except String Bool)
    (attached : List AttachedInterface) : List InterfaceHealth :=
  attached.map (interfaceHealth verify)

end AyaKernelSource

/-! ## Open gaps -/

namespace HealthTracker

variable {tracker : HealthTracker} {key other : GapKey} {time : SystemTime}

/-- What is reported of a gap says whether it is open. -/
structure Sound (tracker : HealthTracker) : Prop where
  opened : ∀ key gap, AList.lookup key tracker.openGaps = some gap → gap.endedAt = none
  closed : ∀ gap ∈ tracker.closedGaps, gap.endedAt.isSome

@[simp]
theorem mem_openGap : other ∈ (tracker.openGap key time).openGaps ↔
    other = key ∨ other ∈ tracker.openGaps := by
  unfold openGap
  split
  · next hmem =>
    constructor
    · exact Or.inr
    · rintro (rfl | hother)
      · exact hmem
      · exact hother
  · exact AList.mem_insert tracker.openGaps

@[simp]
theorem mem_closeGap : other ∈ (tracker.closeGap key time).openGaps ↔
    other ≠ key ∧ other ∈ tracker.openGaps := by
  unfold closeGap
  split
  · next hnone =>
    constructor
    · intro hother
      refine ⟨?_, hother⟩
      rintro rfl
      exact AList.lookup_eq_none.mp hnone hother
    · exact And.right
  · exact AList.mem_erase

theorem Sound.openGap (h : tracker.Sound) : (tracker.openGap key time).Sound := by
  unfold HealthTracker.openGap
  split
  · exact h
  · constructor
    · intro other gap hgap
      by_cases hkey : other = key
      · subst hkey
        rw [AList.lookup_insert] at hgap
        rw [← Option.some.inj hgap]
      · rw [AList.lookup_insert_ne hkey] at hgap
        exact h.opened other gap hgap
    · exact h.closed

theorem Sound.closeGap (h : tracker.Sound) : (tracker.closeGap key time).Sound := by
  unfold HealthTracker.closeGap
  split
  · exact h
  · constructor
    · intro other gap hgap
      by_cases hkey : other = key
      · subst hkey
        simp [AList.lookup_erase] at hgap
      · rw [AList.lookup_erase_ne hkey] at hgap
        exact h.opened other gap hgap
    · intro gap hgap
      rcases List.mem_append.mp hgap with hgap | hgap
      · exact h.closed gap hgap
      · rw [List.mem_singleton.mp hgap]
        rfl

theorem Sound.observe {α : Type} {result : Option α} (h : tracker.Sound) :
    (tracker.observe key time result).Sound := by
  unfold HealthTracker.observe
  split
  · exact h.closeGap
  · exact h.openGap

theorem mem_observe {α : Type} {result : Option α} :
    other ∈ (tracker.observe key time result).openGaps ↔
      if other = key then result = none else other ∈ tracker.openGaps := by
  unfold observe
  cases result <;> by_cases hkey : other = key <;> simp [hkey]

theorem Sound.visitInterface {interface : InterfaceHealth} (h : tracker.Sound) :
    (tracker.visitInterface time interface).Sound := by
  unfold HealthTracker.visitInterface
  simp only
  split
  · exact h.closeGap
  · exact h.openGap

theorem mem_visitInterface {interface : InterfaceHealth} :
    other ∈ (tracker.visitInterface time interface).openGaps ↔
      if other = .interfaceDetached interface.ifindex then interface.isAttached = false
      else other ∈ tracker.openGaps := by
  unfold visitInterface
  by_cases hattached : interface.isAttached = true <;>
    by_cases hkey : other = .interfaceDetached interface.ifindex <;> simp [hattached, hkey]

end HealthTracker

/-- What is reported last of an interface. -/
def lastReport (reports : List InterfaceHealth) (ifindex : UInt32) : Option InterfaceHealth :=
  (reports.filter fun report => report.ifindex = ifindex).getLast?

theorem lastReport_append (reports later : List InterfaceHealth) (ifindex : UInt32) :
    lastReport (reports ++ later) ifindex =
      (lastReport later ifindex).or (lastReport reports ifindex) := by
  unfold lastReport
  rw [List.filter_append, List.getLast?_append]

theorem lastReport_eq_none {reports : List InterfaceHealth} {ifindex : UInt32} :
    lastReport reports ifindex = none ↔ ∀ report ∈ reports, report.ifindex ≠ ifindex := by
  simp [lastReport]

theorem lastReport_mem {reports : List InterfaceHealth} {ifindex : UInt32} {report : InterfaceHealth}
    (h : lastReport reports ifindex = some report) : report ∈ reports ∧ report.ifindex = ifindex := by
  simpa using List.mem_of_getLast? h

/-- The interface was not attached in both directions when it was last reported. -/
def Detached (reports : List InterfaceHealth) (ifindex : UInt32) : Prop :=
  ∃ report, lastReport reports ifindex = some report ∧ report.isAttached = false

theorem detached_append {reports later : List InterfaceHealth} {ifindex : UInt32} :
    Detached (reports ++ later) ifindex ↔
      Detached later ifindex ∨ (∀ report ∈ later, report.ifindex ≠ ifindex) ∧ Detached reports ifindex := by
  unfold Detached
  rw [lastReport_append, ← lastReport_eq_none]
  cases lastReport later ifindex <;> simp

theorem detached_append_singleton {reports : List InterfaceHealth} {report : InterfaceHealth}
    {ifindex : UInt32} : Detached (reports ++ [report]) ifindex ↔
      if ifindex = report.ifindex then report.isAttached = false else Detached reports ifindex := by
  unfold Detached
  rw [lastReport_append]
  by_cases hsame : ifindex = report.ifindex
  · simp [lastReport, hsame]
  · simp [lastReport, hsame, Ne.symm hsame]

namespace HealthTracker

variable {tracker : HealthTracker} {time : SystemTime} {reports : List InterfaceHealth}

theorem Sound.visitInterfaces (h : tracker.Sound) :
    (reports.foldl (HealthTracker.visitInterface time) tracker).Sound := by
  induction reports generalizing tracker with
  | nil => exact h
  | cons report reports ih => exact ih h.visitInterface

/-- The gap of an interface follows its last report; the other gaps stay. -/
theorem mem_visitInterfaces {key : GapKey} :
    key ∈ (reports.foldl (visitInterface time) tracker).openGaps ↔
      (∃ ifindex, key = .interfaceDetached ifindex ∧ Detached reports ifindex) ∨
        (∀ report ∈ reports, key ≠ .interfaceDetached report.ifindex) ∧ key ∈ tracker.openGaps := by
  induction reports using List.reverseRecOn with
  | nil => simp [Detached, lastReport]
  | append_singleton reports report ih =>
    rw [List.foldl_append, List.foldl_cons, List.foldl_nil, mem_visitInterface, ih]
    by_cases hkey : key = .interfaceDetached report.ifindex
    · subst hkey
      simp [detached_append_singleton]
    · rw [if_neg hkey]
      have hother : ∀ ifindex, key = .interfaceDetached ifindex →
          (Detached (reports ++ [report]) ifindex ↔ Detached reports ifindex) := by
        rintro ifindex rfl
        rw [detached_append_singleton, if_neg fun h => hkey (by rw [h])]
      have hall : (∀ r ∈ reports ++ [report], key ≠ .interfaceDetached r.ifindex) ↔
          ∀ r ∈ reports, key ≠ .interfaceDetached r.ifindex := by
        rw [List.forall_mem_append, List.forall_mem_singleton]
        exact and_iff_left hkey
      rw [hall]
      apply or_congr_left
      apply exists_congr
      intro ifindex
      exact and_congr_right fun h => (hother ifindex h).symm

end HealthTracker

/-! ## Polls -/

section Reads

open HealthTracker

variable {tracker : HealthTracker} {poll : SourcePoll} {ifindex : UInt32}

theorem openGaps_recordKernel (current : KernelCounters) :
    (tracker.recordKernel current).openGaps = tracker.openGaps := rfl

theorem HealthTracker.Sound.recordKernel {current : KernelCounters} (h : tracker.Sound) :
    (tracker.recordKernel current).Sound :=
  ⟨h.opened, h.closed⟩

theorem HealthTracker.Sound.reads (h : tracker.Sound) : (poll.reads tracker).Sound := by
  unfold SourcePoll.reads
  simp only
  split
  · exact h.observe.observe.observe.observe.observe
  · exact h.observe.observe.observe.observe.observe.recordKernel

/-- The reads leave the gaps of the interfaces as they are. -/
theorem interfaceDetached_mem_reads :
    .interfaceDetached ifindex ∈ (poll.reads tracker).openGaps ↔
      .interfaceDetached ifindex ∈ tracker.openGaps := by
  unfold SourcePoll.reads
  simp only
  split <;> simp [openGaps_recordKernel, mem_observe]

/-- Every kernel read of the poll succeeds. -/
structure SourcePoll.Succeeds (poll : SourcePoll) : Prop where
  services : poll.services.isSome
  owners : poll.owners.isSome
  flows : poll.flows.isSome
  domains : poll.domains.isSome
  stats : poll.stats.isSome

/-- When every read succeeds, only gaps of interfaces are left. -/
theorem interfaceDetached_of_mem_reads {key : GapKey} (h : poll.Succeeds)
    (hkey : key ∈ (poll.reads tracker).openGaps) : ∃ ifindex, key = .interfaceDetached ifindex := by
  obtain ⟨hservices, howners, hflows, hdomains, hstats⟩ := h
  unfold SourcePoll.reads at hkey
  simp only at hkey
  have hopen : key ∈ (((((tracker.observe .serviceEventsReadFailed poll.collectedAt
      poll.services).observe .ownerMapReadFailed poll.collectedAt poll.owners).observe
      .flowMapReadFailed poll.collectedAt poll.flows).observe .domainEventsReadFailed poll.collectedAt
      poll.domains).observe .kernelStatsReadFailed poll.collectedAt poll.stats).openGaps := by
    split at hkey
    · exact hkey
    · exact hkey
  simp only [mem_observe] at hopen
  cases key <;> simp_all

end Reads

/-- Running, with no gap still open. -/
def CollectorHealth.Recovered (health : CollectorHealth) : Prop :=
  health.state = .running ∧ ∀ gap ∈ health.gaps, gap.endedAt.isSome

section Runs

open HealthTracker

variable {core : HealthCore} {poll : SourcePoll}

/-- The gaps of a run: those of the interfaces whose last report was not attached, beside those of
the reads. -/
structure GapsFollow (reports : List InterfaceHealth) (tracker : HealthTracker) : Prop where
  sound : tracker.Sound
  detached : ∀ ifindex, .interfaceDetached ifindex ∈ tracker.openGaps ↔ Detached reports ifindex

theorem GapsFollow.visited {reports : List InterfaceHealth} {tracker : HealthTracker}
    (h : GapsFollow reports tracker) (poll : SourcePoll) :
    GapsFollow (reports ++ poll.interfaces)
      (poll.interfaces.foldl (visitInterface poll.collectedAt) (poll.reads tracker)) := by
  constructor
  · exact h.sound.reads.visitInterfaces
  · intro ifindex
    rw [mem_visitInterfaces, interfaceDetached_mem_reads, h.detached, detached_append]
    simp [eq_comm]

theorem GapsFollow.pollOnce {reports : List InterfaceHealth} (h : GapsFollow reports core.health)
    (poll : SourcePoll) : GapsFollow (reports ++ poll.interfaces) (core.pollOnce poll).2.health := by
  have hvisited := h.visited poll
  constructor
  · constructor
    · exact hvisited.sound.opened
    · intro gap hgap
      exact absurd hgap List.not_mem_nil
  · exact hvisited.detached

theorem GapsFollow.runPolls {reports : List InterfaceHealth} (h : GapsFollow reports core.health)
    (polls : List SourcePoll) :
    GapsFollow (reports ++ polls.flatMap SourcePoll.interfaces) (core.runPolls polls).health := by
  induction polls generalizing core reports with
  | nil =>
    rw [List.flatMap_nil, List.append_nil]
    exact h
  | cons poll polls ih =>
    rw [List.flatMap_cons, ← List.append_assoc]
    exact ih (h.pollOnce poll)

theorem gapsFollow_start (mapCapacity : ℕ) : GapsFollow [] (HealthCore.health { mapCapacity }) := by
  constructor
  · constructor
    · intro key gap hgap
      simp at hgap
    · intro gap hgap
      exact absurd hgap List.not_mem_nil
  · intro ifindex
    simp [Detached, lastReport]

theorem SourcePoll.Succeeds.not_degraded (hreads : poll.Succeeds)
    (hattached : ∀ interface ∈ poll.interfaces, interface.isAttached) : poll.degraded = false := by
  obtain ⟨hservices, howners, hflows, hdomains, hstats⟩ := hreads
  have hany : (poll.interfaces.any fun interface => !interface.isAttached) = false := by
    simpa using hattached
  simp [degraded, hany, ← Option.not_isSome, hservices, howners, hflows, hdomains, hstats]

theorem entries_eq_nil_iff {gaps : HashMap GapKey ObservationGap} :
    gaps.entries = [] ↔ ∀ key, key ∉ gaps := by
  have hkeys : gaps.entries = [] ↔ gaps.keys = [] := List.map_eq_nil_iff.symm
  rw [hkeys, List.eq_nil_iff_forall_not_mem]
  rfl

/-- A poll without a failure of its own is healthy if no gap is left. -/
theorem recovered_pollOnce_iff (hcore : core.health.Sound) (hdegraded : poll.degraded = false) :
    (core.pollOnce poll).1.Recovered ↔ ∀ key, key ∉ (poll.interfaces.foldl
      (visitInterface poll.collectedAt) (poll.reads core.health)).openGaps := by
  have hsound : (poll.interfaces.foldl (visitInterface poll.collectedAt) (poll.reads core.health)).Sound :=
    hcore.reads.visitInterfaces
  rw [← entries_eq_nil_iff]
  unfold CollectorHealth.Recovered HealthCore.pollOnce
  simp only [snapshot, hdegraded, Bool.false_or]
  generalize poll.interfaces.foldl (visitInterface poll.collectedAt) (poll.reads core.health) =
    tracker at hsound
  constructor
  · rintro ⟨hstate, -⟩
    by_contra hopen
    rw [if_pos (by simpa using hopen)] at hstate
    exact absurd hstate (by decide)
  · intro hnil
    constructor
    · rw [if_neg (by simp [hnil])]
    · rw [hnil]
      exact hsound.closed

/-- In every run, a poll that reads everything and finds every interface attached is healthy if and
only if it reports each interface that was not attached when last reported. -/
theorem health_recovers_iff (mapCapacity : ℕ) (polls : List SourcePoll) (poll : SourcePoll)
    (hreads : poll.Succeeds) (hattached : ∀ interface ∈ poll.interfaces, interface.isAttached) :
    ((HealthCore.runPolls { mapCapacity } polls).pollOnce poll).1.Recovered ↔
      ∀ ifindex, Detached (polls.flatMap SourcePoll.interfaces) ifindex →
        ∃ interface ∈ poll.interfaces, interface.ifindex = ifindex := by
  have hgaps := (gapsFollow_start mapCapacity).runPolls polls
  rw [List.nil_append] at hgaps
  rw [recovered_pollOnce_iff hgaps.sound (hreads.not_degraded hattached)]
  generalize (HealthCore.runPolls { mapCapacity } polls).health = tracker at hgaps
  constructor
  · intro hnone ifindex hdetached
    by_contra hunreported
    apply hnone (.interfaceDetached ifindex)
    rw [(hgaps.visited poll).detached, detached_append]
    right
    constructor
    · intro report hmem hsame
      exact hunreported ⟨report, hmem, hsame⟩
    · exact hdetached
  · intro hreported key hkey
    rcases mem_visitInterfaces.mp hkey with ⟨ifindex, -, report, hlast, hdown⟩ | ⟨hother, hopen⟩
    · rw [hattached report (lastReport_mem hlast).1] at hdown
      exact absurd hdown (by decide)
    · obtain ⟨ifindex, rfl⟩ := interfaceDetached_of_mem_reads hreads hopen
      rw [interfaceDetached_mem_reads, hgaps.detached] at hopen
      obtain ⟨interface, hmem, hifindex⟩ := hreported ifindex hopen
      exact hother interface hmem (by rw [hifindex])

end Runs

/-! ## An interface that leaves the boundary -/

section Boundary

open AyaKernelSource

variable {attach : UInt32 → Option String} {tcx : Bool} {boundary : List (UInt32 × String)}
  {verify : String → TcAttachType → Except String Bool}

/-- Every interface is stored under its own index, and these are of the boundary. -/
def Wanted (boundary : List (UInt32 × String)) (current : HashMap UInt32 AttachedInterface) : Prop :=
  ∀ ifindex interface, AList.lookup ifindex current = some interface →
    interface.ifindex = ifindex ∧ ∃ wanted ∈ boundary, wanted.1 = ifindex

theorem ifindex_attachOne (wanted : UInt32 × String) :
    (attachOne attach tcx wanted).ifindex = wanted.1 := by
  unfold attachOne
  split <;> rfl

theorem Wanted.insert {current : HashMap UInt32 AttachedInterface} (h : Wanted boundary current)
    {wanted : UInt32 × String} (hwanted : wanted ∈ boundary) :
    Wanted boundary (AList.insert wanted.1 (attachOne attach tcx wanted) current) := by
  intro ifindex interface hlookup
  by_cases hsame : ifindex = wanted.1
  · subst hsame
    rw [AList.lookup_insert] at hlookup
    rw [← Option.some.inj hlookup]
    exact ⟨ifindex_attachOne wanted, wanted, hwanted, rfl⟩
  · rw [AList.lookup_insert_ne hsame] at hlookup
    exact h ifindex interface hlookup

theorem wanted_foldl {current : HashMap UInt32 AttachedInterface} (h : Wanted boundary current)
    {rest : List (UInt32 × String)} (hrest : ∀ wanted ∈ rest, wanted ∈ boundary) :
    Wanted boundary (rest.foldl (fun current wanted =>
      if (AList.lookup wanted.1 current).any fun interface => interface.ingress && interface.egress then
        current
      else current.insert wanted.1 (attachOne attach tcx wanted)) current) := by
  induction rest generalizing current with
  | nil => exact h
  | cons wanted rest ih =>
    rw [List.foldl_cons]
    apply ih
    · split
      · exact h
      · exact h.insert (hrest wanted List.mem_cons_self)
    · exact fun other hother => hrest other (List.mem_cons_of_mem _ hother)

theorem lookup_foldl_insert {attached : List AttachedInterface}
    {current : HashMap UInt32 AttachedInterface}
    (h : ∀ ifindex interface, AList.lookup ifindex current = some interface →
      interface.ifindex = ifindex) {ifindex : UInt32} {interface : AttachedInterface}
    (hlookup : AList.lookup ifindex (attached.foldl (fun current interface =>
      current.insert interface.ifindex interface) current) = some interface) :
    interface.ifindex = ifindex := by
  induction attached generalizing current with
  | nil => exact h ifindex interface hlookup
  | cons first attached ih =>
    apply ih ?_ hlookup
    intro other found hfound
    by_cases hsame : other = first.ifindex
    · subst hsame
      rw [AList.lookup_insert] at hfound
      rw [← Option.some.inj hfound]
    · rw [AList.lookup_insert_ne hsame] at hfound
      exact h other found hfound

/-- Only the interfaces of the boundary are attached. -/
theorem mem_reconcile {attached : List AttachedInterface} {interface : AttachedInterface}
    (h : interface ∈ reconcile attach tcx boundary attached) :
    ∃ wanted ∈ boundary, wanted.1 = interface.ifindex := by
  unfold reconcile at h
  simp only [List.mem_insertionSort, List.mem_map] at h
  obtain ⟨⟨ifindex, found⟩, hmem, rfl⟩ := h
  refine (wanted_foldl ?_ (fun _ h => h) ifindex found (AList.mem_lookup_iff.mpr hmem)).elim ?_
  · intro ifindex interface hlookup
    rw [HashMap.lookup_retain, Option.filter_eq_some_iff] at hlookup
    refine ⟨lookup_foldl_insert (by simp) hlookup.1, ?_⟩
    simpa using hlookup.2
  · rintro rfl hwanted
    exact hwanted

/-- What leaves the boundary is not reported any more. -/
theorem unreported_of_left {attached : List AttachedInterface} {ifindex : UInt32}
    (hleft : ∀ wanted ∈ boundary, wanted.1 ≠ ifindex) :
    ∀ report ∈ attachmentHealth verify (reconcile attach tcx boundary attached),
      report.ifindex ≠ ifindex := by
  rintro report hreport rfl
  obtain ⟨interface, hinterface, rfl⟩ := List.mem_map.mp hreport
  obtain ⟨wanted, hwanted, hsame⟩ := mem_reconcile hinterface
  apply hleft wanted hwanted
  rw [hsame]
  unfold interfaceHealth
  simp only
  split
  · rfl
  · split <;> rfl

/-- As long as an interface that was last reported detached is not reported, the collector is
degraded. -/
theorem degraded_while_unreported {mapCapacity : ℕ} {polls : List SourcePoll} {poll : SourcePoll}
    {ifindex : UInt32} (hdetached : Detached (polls.flatMap SourcePoll.interfaces) ifindex)
    (hunreported : ∀ report ∈ poll.interfaces, report.ifindex ≠ ifindex) :
    ((HealthCore.runPolls { mapCapacity } polls).pollOnce poll).1.state = .degraded := by
  have hgaps := ((gapsFollow_start mapCapacity).runPolls polls).visited poll
  rw [List.nil_append] at hgaps
  have hopen := (hgaps.detached ifindex).mpr (detached_append.mpr (Or.inr ⟨hunreported, hdetached⟩))
  have hne : ¬ _ := fun hnil => entries_eq_nil_iff.mp hnil _ hopen
  exact if_pos (by simpa using Or.inr hne)

/-- Two interfaces, of which the second cannot be attached. -/
def bothAttached : List AttachedInterface :=
  AyaKernelSource.reconcile (fun ifindex => if ifindex = 8 then some "attach docker0" else none) true
    [(7, "eth0"), (8, "docker0")] []

/-- The first of them, after the second has left the boundary. -/
def oneAttached : List AttachedInterface :=
  AyaKernelSource.reconcile (fun _ => none) true [(7, "eth0")] bothAttached

/-- A poll without failed reads. -/
def quietPoll (attached : List AttachedInterface) : SourcePoll where
  collectedAt := 0
  services := some ()
  owners := some 0
  flows := some 0
  domains := some ()
  stats := some fun _ => 0
  interfaces := attachmentHealth (fun _ _ => .ok true) attached

theorem quietPoll_succeeds (attached : List AttachedInterface) : (quietPoll attached).Succeeds :=
  ⟨rfl, rfl, rfl, rfl, rfl⟩

/-- Once the second interface is attached, the collector is healthy again. -/
theorem health_recovers_reattached :
    ((HealthCore.runPolls { mapCapacity := 65536 } [quietPoll bothAttached]).pollOnce
      (quietPoll (AyaKernelSource.reconcile (fun _ => none) true [(7, "eth0"), (8, "docker0")]
        bothAttached))).1.Recovered := by
  apply (health_recovers_iff 65536 _ _ (quietPoll_succeeds _) (by decide +kernel)).mpr
  rintro ifindex ⟨report, hlast, -⟩
  obtain ⟨hmem, rfl⟩ := lastReport_mem hlast
  revert report
  decide +kernel

/-- Removed from the boundary instead, the second interface keeps the collector degraded. -/
theorem degraded_after_removal : ¬ ∀ (mapCapacity : ℕ) (polls : List SourcePoll) (poll : SourcePoll),
    poll.Succeeds → (∀ interface ∈ poll.interfaces, interface.isAttached) →
      ((HealthCore.runPolls { mapCapacity } polls).pollOnce poll).1.Recovered := by
  intro hall
  have hdetached : Detached ([quietPoll bothAttached].flatMap SourcePoll.interfaces) 8 :=
    ⟨⟨8, "docker0", false, false, some "attach docker0"⟩, by decide +kernel, rfl⟩
  have hunreported : ∀ report ∈ (quietPoll oneAttached).interfaces, report.ifindex ≠ 8 :=
    unreported_of_left (by decide)
  have hrecovered := hall 65536 [quietPoll bothAttached] (quietPoll oneAttached)
    (quietPoll_succeeds _) (by decide +kernel)
  rw [CollectorHealth.Recovered, degraded_while_unreported hdetached hunreported] at hrecovered
  exact absurd hrecovered.1 (by decide)

end Boundary

end ZimaScope
