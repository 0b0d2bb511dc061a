import ZimaScope.Collector.Health

/-! # Kernel counters over a run

A poll reports what the kernel counters grew by since they were read before. A
poll that cannot read them reports the growth of the last read once more.
-/

namespace ZimaScope

/-- The health of the batches of a run. -/
def HealthCore.batches (core : HealthCore) : List SourcePoll → List CollectorHealth
  | [] => []
  | poll :: polls => (core.pollOnce poll).1 :: batches (core.pollOnce poll).2 polls

/-- The counters that a run reads. -/
def readings (polls : List SourcePoll) : List KernelCounters := polls.filterMap SourcePoll.stats

/-- The counters as they were last read, zero before the first read. -/
def lastReading (polls : List SourcePoll) : KernelCounters :=
  (readings polls).getLast?.getD fun _ => 0

/-- What the last read added to the one before it. -/
def lastIncrease (polls : List SourcePoll) : KernelCounters := fun counter =>
  lastReading polls counter - ((readings polls).dropLast.getLast?.getD fun _ => 0) counter

theorem batches_append (core : HealthCore) (polls : List SourcePoll) (poll : SourcePoll) :
    core.batches (polls ++ [poll]) = core.batches polls ++ [((core.runPolls polls).pollOnce poll).1] := by
  induction polls generalizing core with
  | nil => rfl
  | cons first polls ih =>
    simp only [List.cons_append, HealthCore.batches, ih]
    rfl

theorem runPolls_append (core : HealthCore) (polls : List SourcePoll) (poll : SourcePoll) :
    core.runPolls (polls ++ [poll]) = ((core.runPolls polls).pollOnce poll).2 :=
  List.foldl_append

/-- The gaps of the five reads. -/
def SourcePoll.observed (poll : SourcePoll) (tracker : HealthTracker) : HealthTracker :=
  ((((tracker.observe .serviceEventsReadFailed poll.collectedAt poll.services).observe
    .ownerMapReadFailed poll.collectedAt poll.owners).observe .flowMapReadFailed poll.collectedAt
    poll.flows).observe .domainEventsReadFailed poll.collectedAt poll.domains).observe
    .kernelStatsReadFailed poll.collectedAt poll.stats

theorem reads_eq (poll : SourcePoll) (tracker : HealthTracker) : poll.reads tracker =
    match poll.stats with
    | none => poll.observed tracker
    | some stats => (poll.observed tracker).recordKernel stats := rfl

/-! ## What a read does -/

namespace HealthTracker

variable (tracker : HealthTracker)

/-- What the tracker knows of the kernel counters. -/
def kernelPart : KernelCounters × Bool × KernelCounters :=
  (tracker.lastKernel, tracker.kernelSeen, tracker.lastDelta)

@[simp]
theorem kernelPart_openGap (key : GapKey) (time : SystemTime) :
    (tracker.openGap key time).kernelPart = tracker.kernelPart := by
  unfold openGap
  split <;> rfl

@[simp]
theorem kernelPart_closeGap (key : GapKey) (time : SystemTime) :
    (tracker.closeGap key time).kernelPart = tracker.kernelPart := by
  unfold closeGap
  split <;> rfl

@[simp]
theorem kernelPart_observe {α : Type} (key : GapKey) (time : SystemTime) (result : Option α) :
    (tracker.observe key time result).kernelPart = tracker.kernelPart := by
  unfold observe
  split
  · exact kernelPart_closeGap ..
  · exact kernelPart_openGap ..

theorem kernelPart_visitInterfaces (time : SystemTime) (interfaces : List InterfaceHealth) :
    (interfaces.foldl (visitInterface time) tracker).kernelPart = tracker.kernelPart := by
  induction interfaces generalizing tracker with
  | nil => rfl
  | cons interface interfaces ih =>
    rw [List.foldl_cons, ih]
    unfold visitInterface
    simp only
    split
    · exact kernelPart_closeGap ..
    · exact kernelPart_openGap ..

end HealthTracker

/-- The kernel counters as they are known after the polls. -/
structure Tallied (polls : List SourcePoll) (tracker : HealthTracker) : Prop where
  lastKernel : tracker.lastKernel = lastReading polls
  unseen : tracker.kernelSeen = false → tracker.lastKernel = fun _ => 0
  lastDelta : tracker.lastDelta = lastIncrease polls

section Read

variable {tracker : HealthTracker} {polls : List SourcePoll} {poll : SourcePoll}
  {current : KernelCounters}

theorem Tallied.of_kernelPart {other : HealthTracker} (h : Tallied polls tracker)
    (hsame : other.kernelPart = tracker.kernelPart) : Tallied polls other := by
  simp only [HealthTracker.kernelPart, Prod.mk.injEq] at hsame
  obtain ⟨hlast, hseen, hdelta⟩ := hsame
  constructor
  · rw [hlast, h.lastKernel]
  · rw [hseen, hlast]
    exact h.unseen
  · rw [hdelta, h.lastDelta]

theorem readings_append_none (hnone : poll.stats = none) :
    readings (polls ++ [poll]) = readings polls := by
  simp [readings, List.filterMap_append, hnone]

theorem readings_append_some (hsome : poll.stats = some current) :
    readings (polls ++ [poll]) = readings polls ++ [current] := by
  simp [readings, List.filterMap_append, hsome]

theorem lastReading_append_some (hsome : poll.stats = some current) :
    lastReading (polls ++ [poll]) = current := by
  unfold lastReading
  rw [readings_append_some hsome, List.getLast?_concat]
  rfl

theorem lastIncrease_append_some (hsome : poll.stats = some current) :
    lastIncrease (polls ++ [poll]) = current.deltaFrom (lastReading polls) := by
  unfold lastIncrease
  rw [lastReading_append_some hsome, readings_append_some hsome, List.dropLast_concat]
  rfl

/-- A read that does not go back adds what the counters grew by. -/
theorem lastDelta_recordKernel (hunseen : tracker.kernelSeen = false → tracker.lastKernel = fun _ => 0)
    (hmono : tracker.lastKernel ≤ current) :
    (tracker.recordKernel current).lastDelta = current.deltaFrom tracker.lastKernel := by
  have hmonotonic : current.isMonotonicFrom tracker.lastKernel = true :=
    List.all_eq_true.mpr fun counter _ => decide_eq_true (hmono counter)
  unfold HealthTracker.recordKernel
  simp only [hmonotonic, Bool.and_true]
  cases hseen : tracker.kernelSeen with
  | true => rfl
  | false =>
    rw [hunseen hseen]
    rfl

theorem Tallied.reads (h : Tallied polls tracker)
    (hmono : ∀ current ∈ poll.stats, lastReading polls ≤ current) :
    Tallied (polls ++ [poll]) (poll.reads tracker) := by
  have hobserved : Tallied polls (poll.observed tracker) := h.of_kernelPart (by
    simp [SourcePoll.observed])
  rw [reads_eq]
  cases hstats : poll.stats with
  | none =>
    have hsame := @readings_append_none polls _ hstats
    constructor
    · rw [hobserved.lastKernel]
      unfold lastReading
      rw [hsame]
    · exact hobserved.unseen
    · rw [hobserved.lastDelta]
      unfold lastIncrease lastReading
      rw [hsame]
  | some current =>
    have hle := hmono current hstats
    rw [← hobserved.lastKernel] at hle
    constructor
    · exact (lastReading_append_some hstats).symm
    · intro hseen
      cases hseen
    · rw [lastDelta_recordKernel hobserved.unseen hle, hobserved.lastKernel,
        lastIncrease_append_some hstats]

end Read

/-! ## Runs -/

section Runs

variable {polls : List SourcePoll} {poll : SourcePoll}

/-- The counters never go back. -/
def NeverDecrease (polls : List SourcePoll) : Prop := (readings polls).Pairwise (· ≤ ·)

theorem NeverDecrease.of_append (h : NeverDecrease (polls ++ [poll])) :
    NeverDecrease polls ∧ ∀ current ∈ poll.stats, lastReading polls ≤ current := by
  unfold NeverDecrease at h
  cases hstats : poll.stats with
  | none =>
    rw [readings_append_none hstats] at h
    exact ⟨h, fun _ hnone => nomatch hnone⟩
  | some current =>
    rw [readings_append_some hstats, List.pairwise_append] at h
    refine ⟨h.1, ?_⟩
    rintro _ ⟨⟩
    unfold lastReading
    cases hlast : (readings polls).getLast? with
    | none => exact fun _ => Nat.zero_le _
    | some last => exact h.2.2 last (List.mem_of_getLast? hlast) current (by simp)

theorem tallied_pollOnce {core : HealthCore} (h : Tallied polls core.health)
    (hmono : ∀ current ∈ poll.stats, lastReading polls ≤ current) :
    Tallied (polls ++ [poll]) (core.pollOnce poll).2.health ∧
      (core.pollOnce poll).1.kernel = lastIncrease (polls ++ [poll]) := by
  have hvisited := (h.reads hmono).of_kernelPart
    (HealthTracker.kernelPart_visitInterfaces _ poll.collectedAt poll.interfaces)
  exact ⟨hvisited.of_kernelPart rfl, hvisited.lastDelta⟩

theorem tallied_runPolls (mapCapacity : ℕ) (h : NeverDecrease polls) :
    Tallied polls (HealthCore.runPolls { mapCapacity } polls).health := by
  induction polls using List.reverseRecOn with
  | nil => exact ⟨rfl, fun _ => rfl, rfl⟩
  | append_singleton polls poll ih =>
    obtain ⟨hpolls, hmono⟩ := h.of_append
    rw [runPolls_append]
    exact (tallied_pollOnce (ih hpolls) hmono).1

/-- Whenever the counters cannot be read, the last read had added nothing. -/
def RepeatsNothing (polls : List SourcePoll) (counter : KernelCounter) : Prop :=
  ∀ past poll, past ++ [poll] <+: polls → poll.stats = none → lastIncrease past counter = 0

theorem repeatsNothing_append {counter : KernelCounter} : RepeatsNothing (polls ++ [poll]) counter ↔
    RepeatsNothing polls counter ∧ (poll.stats = none → lastIncrease polls counter = 0) := by
  unfold RepeatsNothing
  simp only [List.prefix_concat_iff]
  constructor
  · intro h
    exact ⟨fun past other hprefix => h past other (Or.inr hprefix), h polls poll (Or.inl rfl)⟩
  · rintro ⟨hpolls, hpoll⟩ past other (hlast | hprefix)
    · obtain ⟨rfl, hother⟩ := List.append_inj' hlast rfl
      obtain rfl := List.head_eq_of_cons_eq hother
      exact hpoll
    · exact hpolls past other hprefix

/-- What is reported of a counter is at least what was read, and that exactly
when no growth is reported twice. -/
theorem sum_kernel (mapCapacity : ℕ) (h : NeverDecrease polls) (counter : KernelCounter) :
    lastReading polls counter ≤
        ((HealthCore.batches { mapCapacity } polls).map fun health => health.kernel counter).sum ∧
      (((HealthCore.batches { mapCapacity } polls).map fun health => health.kernel counter).sum =
        lastReading polls counter ↔ RepeatsNothing polls counter) := by
  induction polls using List.reverseRecOn with
  | nil =>
    refine ⟨le_rfl, iff_of_true rfl fun past poll hprefix => ?_⟩
    simp at hprefix
  | append_singleton polls poll ih =>
    obtain ⟨hpolls, hmono⟩ := h.of_append
    obtain ⟨hle, hiff⟩ := ih hpolls
    have hkernel := (tallied_pollOnce (tallied_runPolls mapCapacity hpolls) hmono).2
    rw [batches_append, List.map_append, List.sum_append, List.map_singleton, List.sum_singleton,
      hkernel, repeatsNothing_append, ← hiff]
    generalize ((HealthCore.batches { mapCapacity } polls).map fun health =>
      health.kernel counter).sum = total at hle
    cases hstats : poll.stats with
    | none =>
      have hlast : lastReading (polls ++ [poll]) = lastReading polls := by
        unfold lastReading
        rw [readings_append_none hstats]
      have hincrease : lastIncrease (polls ++ [poll]) = lastIncrease polls := by
        unfold lastIncrease
        rw [hlast, readings_append_none hstats]
      rw [hlast, hincrease]
      constructor
      · omega
      · simp only [true_implies]
        omega
    | some current =>
      have hgrown : lastReading polls counter ≤ current counter := hmono current hstats counter
      rw [lastReading_append_some hstats, lastIncrease_append_some hstats]
      unfold KernelCounters.deltaFrom
      simp only [reduceCtorEq, false_implies, and_true]
      constructor <;> omega

/-- In a run in which the kernel counters never decrease, what the batches report adds up to the
counters as they were last read exactly when no failed read follows one that added something. -/
theorem kernel_deltas_iff (mapCapacity : ℕ) (polls : List SourcePoll) (h : NeverDecrease polls) :
    (∀ counter, ((HealthCore.batches { mapCapacity } polls).map fun health =>
        health.kernel counter).sum = lastReading polls counter) ↔
      ∀ counter, RepeatsNothing polls counter :=
  forall_congr' fun counter => (sum_kernel mapCapacity h counter).2

end Runs

section Example

/-- A poll that reads the counters, or fails to. -/
def statsPoll (packetsSeen : Option ℕ) : SourcePoll where
  collectedAt := 0
  services := some ()
  owners := some 0
  flows := some 0
  domains := some ()
  stats := packetsSeen.map fun packets counter => if counter = .packetsSeen then packets else 0
  interfaces := []

/-- Nothing was added before the read failed. -/
theorem quiet_failure_adds_up : ((HealthCore.batches { mapCapacity := 65536 }
    [statsPoll (some 5), statsPoll (some 5), statsPoll none]).map fun health =>
      health.kernel .packetsSeen).sum =
    lastReading [statsPoll (some 5), statsPoll (some 5), statsPoll none] .packetsSeen := by
  have hmono : NeverDecrease [statsPoll (some 5), statsPoll (some 5), statsPoll none] :=
    List.pairwise_pair.mpr le_rfl
  have hrepeats : ∀ counter,
      RepeatsNothing ([] ++ [statsPoll (some 5)] ++ [statsPoll (some 5)] ++ [statsPoll none])
        counter := by
    intro counter
    simp only [repeatsNothing_append]
    refine ⟨⟨⟨fun past poll hprefix => ?_, fun h => nomatch h⟩, fun h => nomatch h⟩, fun _ => ?_⟩
    · simp at hprefix
    · exact Nat.sub_self _
  exact (kernel_deltas_iff 65536 _ hmono).mpr hrepeats .packetsSeen

/-- Five packets, reported once when they were read and once more when the next read failed. -/
theorem failure_reports_twice : ¬ ∀ (mapCapacity : ℕ) (polls : List SourcePoll),
    NeverDecrease polls → ∀ counter,
      ((HealthCore.batches { mapCapacity } polls).map fun health => health.kernel counter).sum =
        lastReading polls counter := by
  intro h
  have hmono : NeverDecrease [statsPoll (some 5), statsPoll none] := List.pairwise_singleton _ _
  have hsum := h 65536 [statsPoll (some 5), statsPoll none] hmono .packetsSeen
  revert hsum
  decide +kernel

end Example

end ZimaScope
