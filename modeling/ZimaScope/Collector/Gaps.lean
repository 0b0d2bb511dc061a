import ZimaScope.Collector.KernelTotals
import ZimaScope.Lib.Episodes

/-! # The gap ledger

A gap is what is reported of an episode of failures: in every batch while the
episode is open, and once more, closed, in the batch of the poll that ended it.
-/

namespace ZimaScope

open Episodes

/-- What is reported of an episode. -/
def GapKey.gap (key : GapKey) (startedAt : SystemTime) (endedAt : Option SystemTime) :
    ObservationGap :=
  ⟨startedAt, endedAt, key.reason⟩

/-- What the poll reads, and whether it can. -/
def SourcePoll.readTrials (poll : SourcePoll) : List (GapKey × SystemTime × Bool) :=
  [(.serviceEventsReadFailed, poll.collectedAt, poll.services.isSome),
    (.ownerMapReadFailed, poll.collectedAt, poll.owners.isSome),
    (.flowMapReadFailed, poll.collectedAt, poll.flows.isSome),
    (.domainEventsReadFailed, poll.collectedAt, poll.domains.isSome),
    (.kernelStatsReadFailed, poll.collectedAt, poll.stats.isSome)]

/-- The interfaces that the poll finds, and whether they are attached. -/
def SourcePoll.interfaceTrials (poll : SourcePoll) : List (GapKey × SystemTime × Bool) :=
  poll.interfaces.map fun interface =>
    (.interfaceDetached interface.ifindex, poll.collectedAt, interface.isAttached)

def SourcePoll.trials (poll : SourcePoll) : List (GapKey × SystemTime × Bool) :=
  poll.readTrials ++ poll.interfaceTrials

/-- How a key fared in the polls. -/
def history (key : GapKey) (polls : List SourcePoll) : List (SystemTime × Bool) :=
  trialsOf key (polls.flatMap SourcePoll.trials)

/-- The keys that failed or succeeded in the polls. -/
def triedKeys (polls : List SourcePoll) : List GapKey :=
  ((polls.flatMap SourcePoll.trials).map Prod.fst).dedup

/-- What is to be reported of a key in the batch of a poll: the episode that is open, and those that
the poll ended. -/
def keyReports (key : GapKey) (past : List SourcePoll) (poll : SourcePoll) : List ObservationGap :=
  (openAfter none (history key (past ++ [poll]))).toList.map (key.gap · none) ++
    (closings (openAfter none (history key past)) (history key [poll])).map fun ending =>
      key.gap ending.1 (some ending.2)

theorem history_append {key : GapKey} {polls later : List SourcePoll} :
    history key (polls ++ later) = history key polls ++ history key later := by
  unfold history
  rw [List.flatMap_append, trialsOf_append]

namespace HealthTracker

/-- Closes the gap of a key that succeeds and opens that of one that fails. -/
def tryOnce (tracker : HealthTracker) : GapKey × SystemTime × Bool → HealthTracker
  | (key, time, true) => tracker.closeGap key time
  | (key, time, false) => tracker.openGap key time

theorem observe_eq {α : Type} {tracker : HealthTracker} {key : GapKey} {time : SystemTime}
    {result : Option α} :
    tracker.observe key time result = tracker.tryOnce (key, time, result.isSome) := by
  cases result <;> rfl

theorem observed_eq (poll : SourcePoll) (tracker : HealthTracker) :
    poll.observed tracker = poll.readTrials.foldl tryOnce tracker := by
  unfold SourcePoll.observed SourcePoll.readTrials
  simp only [observe_eq, List.foldl_cons, List.foldl_nil]

theorem visitInterfaces_eq (poll : SourcePoll) (tracker : HealthTracker) :
    poll.interfaces.foldl (visitInterface poll.collectedAt) tracker =
      poll.interfaceTrials.foldl tryOnce tracker := by
  unfold SourcePoll.interfaceTrials
  rw [List.foldl_map]
  congr 1
  funext tracker interface
  unfold visitInterface
  cases interface.isAttached <;> rfl

/-- Which episodes are open, and which have ended and were not reported yet. -/
structure Ledger (since : GapKey → Option SystemTime) (ended : List (GapKey × SystemTime × SystemTime))
    (tracker : HealthTracker) : Prop where
  opened : ∀ key, AList.lookup key tracker.openGaps = (since key).map (key.gap · none)
  closed : tracker.closedGaps = ended.map fun ending => ending.1.gap ending.2.1 (some ending.2.2)

variable {since : GapKey → Option SystemTime} {ended : List (GapKey × SystemTime × SystemTime)}
  {tracker : HealthTracker} {key : GapKey} {time : SystemTime}

theorem Ledger.openGap (h : tracker.Ledger since ended) :
    (tracker.openGap key time).Ledger
      (Function.update since key (some ((since key).getD time))) ended := by
  unfold HealthTracker.openGap
  split
  · next hmem =>
    obtain ⟨began, hbegan⟩ : ∃ began, since key = some began := by
      rw [← AList.lookup_isSome, h.opened, Option.isSome_map] at hmem
      exact Option.isSome_iff_exists.mp hmem
    rw [hbegan, Option.getD_some, ← hbegan, Function.update_eq_self]
    exact h
  · next hmem =>
    have hnone : since key = none := by
      rw [← AList.lookup_eq_none, h.opened, Option.map_eq_none_iff] at hmem
      exact hmem
    constructor
    · intro other
      by_cases hsame : other = key
      · subst hsame
        rw [AList.lookup_insert, Function.update_self, hnone]
        rfl
      · rw [AList.lookup_insert_ne hsame, Function.update_of_ne hsame, h.opened]
    · exact h.closed

theorem Ledger.closeGap (h : tracker.Ledger since ended) :
    (tracker.closeGap key time).Ledger (Function.update since key none)
      (ended ++ (since key).toList.map (key, ·, time)) := by
  unfold HealthTracker.closeGap
  rw [h.opened]
  cases hsince : since key with
  | none =>
    have hsame : Function.update since key none = since := by
      rw [← hsince, Function.update_eq_self]
    rw [hsame]
    simpa using h
  | some began =>
    constructor
    · intro other
      by_cases hsame : other = key
      · subst hsame
        simp [AList.lookup_erase]
      · rw [Function.update_of_ne hsame, ← h.opened]
        exact AList.lookup_erase_ne hsame
    · simp only [Option.map_some, Option.toList_some, List.map_append, List.map_cons, List.map_nil,
        h.closed]
      rfl

theorem Ledger.tryOnce {trial : SystemTime × Bool} (h : tracker.Ledger since ended) :
    (tracker.tryOnce (key, trial)).Ledger (Function.update since key (stillOpen (since key) trial))
      (ended ++ (closings (since key) [trial]).map (key, ·)) := by
  obtain ⟨time, succeeded⟩ := trial
  cases succeeded with
  | true =>
    simp only [closings, List.append_nil, List.map_map]
    exact h.closeGap
  | false =>
    simp only [closings, List.map_nil, List.append_nil]
    exact h.openGap

theorem Ledger.tryAll (h : tracker.Ledger since ended) (trials : List (GapKey × SystemTime × Bool)) :
    (trials.foldl HealthTracker.tryOnce tracker).Ledger
      (fun key => openAfter (since key) (trialsOf key trials)) (ended ++ closingsAll since trials) := by
  induction trials generalizing tracker since ended with
  | nil =>
    rw [closingsAll, List.append_nil]
    exact h
  | cons trial trials ih =>
    obtain ⟨key, trial⟩ := trial
    rw [List.foldl_cons, closingsAll, ← List.append_assoc, openAfter_trialsOf_cons]
    exact ih h.tryOnce

/-- What the poll tries is all that it does to the gaps. -/
theorem Ledger.visited {poll : SourcePoll} (h : tracker.Ledger since ended) :
    (poll.interfaces.foldl (visitInterface poll.collectedAt) (poll.reads tracker)).Ledger
      (fun key => openAfter (since key) (trialsOf key poll.trials))
      (ended ++ closingsAll since poll.trials) := by
  have hreads : (poll.reads tracker).Ledger
      (fun key => openAfter (since key) (trialsOf key poll.readTrials))
      (ended ++ closingsAll since poll.readTrials) := by
    have hobserved := h.tryAll poll.readTrials
    rw [← observed_eq] at hobserved
    rw [reads_eq]
    split
    · exact hobserved
    · exact ⟨hobserved.opened, hobserved.closed⟩
  rw [visitInterfaces_eq]
  have hvisited := hreads.tryAll poll.interfaceTrials
  unfold SourcePoll.trials
  simp only [trialsOf_append, openAfter_append, closingsAll_append, ← List.append_assoc]
  exact hvisited

theorem Ledger.snapshot (h : tracker.Ledger since ended) : Ledger since [] { tracker with closedGaps := [] } :=
  ⟨h.opened, rfl⟩

/-- The gaps that are reported, key by key. -/
theorem Ledger.gaps_perm (h : tracker.Ledger since ended) {keys : List GapKey} (hkeys : keys.Nodup)
    (hopen : ∀ key, (since key).isSome → key ∈ keys) (hended : ∀ ending ∈ ended, ending.1 ∈ keys) :
    (tracker.openGaps.entries.map (·.2) ++ tracker.closedGaps).Perm (keys.flatMap fun key =>
      (since key).toList.map (key.gap · none) ++
        (ended.filter fun ending => ending.1 = key).map fun ending =>
          key.gap ending.2.1 (some ending.2.2)) := by
  have hentries : (keys.flatMap fun key => tracker.openGaps.entries.filter fun entry =>
      entry.1 = key).Perm tracker.openGaps.entries := by
    apply flatMap_filter_perm hkeys
    intro entry hentry
    apply hopen
    have hlookup := AList.mem_lookup_iff.mpr hentry
    rw [h.opened] at hlookup
    exact Option.isSome_map.symm.trans (Option.isSome_iff_exists.mpr ⟨_, hlookup⟩)
  have hopened : (keys.flatMap fun key => (since key).toList.map (key.gap · none)).Perm
      (tracker.openGaps.entries.map (·.2)) := by
    refine List.Perm.trans (List.Perm.of_eq ?_) (hentries.map (·.2))
    rw [List.map_flatMap]
    apply List.flatMap_congr
    intro key _
    have hfound := HashMap.filterMap_entries tracker.openGaps key some
    rw [h.opened, Option.bind_fun_some] at hfound
    rw [← Option.toList_map, ← hfound, ← List.filterMap_eq_map, List.filterMap_filter]
    simp
  have hclosed : (keys.flatMap fun key => (ended.filter fun ending => ending.1 = key).map fun ending =>
      key.gap ending.2.1 (some ending.2.2)).Perm tracker.closedGaps := by
    rw [h.closed]
    refine List.Perm.trans (List.Perm.of_eq ?_) ((flatMap_filter_perm hkeys hended).map _)
    rw [List.map_flatMap]
    apply List.flatMap_congr
    intro key _
    apply List.map_congr_left
    intro ending hending
    rw [of_decide_eq_true (List.mem_filter.mp hending).2]
  exact ((List.flatMap_append_perm ..).symm.trans (hopened.append hclosed)).symm

/-- `HealthTracker::close_all`. -/
def closeAll (tracker : HealthTracker) (time : SystemTime) : HealthTracker :=
  tracker.openGaps.keys.foldl (fun tracker key => tracker.closeGap key time) tracker

theorem closeAll_eq (tracker : HealthTracker) (time : SystemTime) : tracker.closeAll time =
    (tracker.openGaps.keys.map (·, time, true)).foldl tryOnce tracker := by
  rw [List.foldl_map]
  rfl

end HealthTracker

/-- `CollectorCore::shutdown`: the health is returned only if the hooks could be detached. -/
def HealthCore.shutdown {ε : Type} (core : HealthCore) (interfaces : List InterfaceHealth)
    (application : ApplicationHealth) (detached : Except ε Unit) (time : SystemTime) :
    Except ε CollectorHealth :=
  let tracker := core.health.closeAll time
  let health := (tracker.snapshot .stopped interfaces core.mapEntries core.mapCapacity application).1
  detached.map fun () => health

section Runs

variable {polls past : List SourcePoll} {poll : SourcePoll} {key : GapKey}

theorem nodup_triedKeys (polls : List SourcePoll) : (triedKeys polls).Nodup := List.nodup_dedup _

/-- The keys are all that the polls tried. -/
def Covers (keys : List GapKey) (polls : List SourcePoll) : Prop :=
  (polls.flatMap SourcePoll.trials).map Prod.fst ⊆ keys

theorem covers_triedKeys (polls : List SourcePoll) : Covers (triedKeys polls) polls :=
  List.subset_dedup _

theorem Covers.of_append {keys : List GapKey} {later : List SourcePoll}
    (h : Covers keys (polls ++ later)) : Covers keys polls ∧ Covers keys later := by
  unfold Covers at h
  rw [List.flatMap_append, List.map_append, List.append_subset] at h
  exact h

/-- The ledger after a poll. -/
theorem ledger_visited {tracker : HealthTracker}
    (h : tracker.Ledger (fun key => openAfter none (history key past)) []) :
    (poll.interfaces.foldl (HealthTracker.visitInterface poll.collectedAt)
      (poll.reads tracker)).Ledger (fun key => openAfter none (history key (past ++ [poll])))
        (closingsAll (fun key => openAfter none (history key past)) poll.trials) := by
  have hvisited := @HealthTracker.Ledger.visited _ _ _ poll h
  have hpoll (key : GapKey) : trialsOf key poll.trials = history key [poll] := by
    simp [history]
  simp only [hpoll, ← openAfter_append, ← history_append, List.nil_append] at hvisited
  exact hvisited

theorem ledger_runPolls (mapCapacity : ℕ) (polls : List SourcePoll) :
    (HealthCore.runPolls { mapCapacity } polls).health.Ledger
      (fun key => openAfter none (history key polls)) [] := by
  induction polls using List.reverseRecOn with
  | nil => exact ⟨fun _ => rfl, rfl⟩
  | append_singleton polls poll ih =>
    rw [runPolls_append]
    exact (ledger_visited ih).snapshot

/-- What a batch reports, key by key. -/
theorem gaps_pollOnce (mapCapacity : ℕ) {keys : List GapKey} (hkeys : keys.Nodup)
    (hcovers : Covers keys (past ++ [poll])) :
    ((HealthCore.runPolls { mapCapacity } past).pollOnce poll).1.gaps.Perm
      (keys.flatMap fun key => keyReports key past poll) := by
  have hpoll (key : GapKey) : trialsOf key poll.trials = history key [poll] := by
    simp [history]
  have hlater : Covers keys [poll] := hcovers.of_append.2
  have hgaps := (@ledger_visited _ poll _ (ledger_runPolls mapCapacity past)).gaps_perm hkeys
    (fun key hopen => hcovers (mem_keys_of_open hopen))
    (fun ending hending => hlater (by simpa using mem_keys_of_closingsAll hending))
  simp only [filter_closingsAll, List.map_map, hpoll] at hgaps
  exact hgaps

theorem filter_keyReports : ((keyReports key past poll).filter fun gap => gap.endedAt.isSome) =
    (closings (openAfter none (history key past)) (history key [poll])).map fun ending =>
      key.gap ending.1 (some ending.2) := by
  unfold keyReports
  rw [List.filter_append, List.filter_eq_nil_iff.mpr, List.nil_append, List.filter_eq_self]
  · intro gap hgap
    obtain ⟨_, -, rfl⟩ := List.mem_map.mp hgap
    rfl
  · intro gap hgap
    obtain ⟨_, -, rfl⟩ := List.mem_map.mp hgap
    exact Bool.false_ne_true

/-- Over the batches of a run, every episode that has ended is reported once as such. -/
theorem ended_batches (mapCapacity : ℕ) {keys : List GapKey} (hkeys : keys.Nodup)
    (hcovers : Covers keys polls) :
    ((HealthCore.batches { mapCapacity } polls).flatMap fun health =>
      health.gaps.filter fun gap => gap.endedAt.isSome).Perm
        (keys.flatMap fun key => (closings none (history key polls)).map fun ending =>
          key.gap ending.1 (some ending.2)) := by
  induction polls using List.reverseRecOn with
  | nil =>
    have hnil : (keys.flatMap fun key => (closings none (history key [])).map fun ending =>
        key.gap ending.1 (some ending.2)) = [] := List.flatMap_eq_nil_iff.mpr fun _ _ => rfl
    rw [hnil]
    exact List.Perm.nil
  | append_singleton polls poll ih =>
    have hbatch := (gaps_pollOnce mapCapacity hkeys hcovers).filter fun gap => gap.endedAt.isSome
    rw [List.filter_flatMap] at hbatch
    simp only [filter_keyReports] at hbatch
    simp only [batches_append, List.flatMap_append, List.flatMap_singleton, history_append,
      closings_append, List.map_append]
    exact ((ih hcovers.of_append.1).append hbatch).trans (List.flatMap_append_perm ..)

/-- At the shutdown every episode that is open is ended. -/
theorem closeAll_ends {tracker : HealthTracker} {time : SystemTime}
    (h : tracker.Ledger (fun key => openAfter none (history key polls)) []) :
    (tracker.closeAll time).openGaps.entries = [] ∧
      (tracker.closeAll time).closedGaps.Perm ((triedKeys polls).flatMap fun key =>
        (openAfter none (history key polls)).toList.map (key.gap · (some time))) := by
  have hkeys (key : GapKey) : trialsOf key (tracker.openGaps.keys.map (·, time, true)) =
      if key ∈ tracker.openGaps.keys then [(time, true)] else [] :=
    trialsOf_successes tracker.openGaps.nodupKeys
  have hopen (key : GapKey) :
      key ∈ tracker.openGaps.keys ↔ (openAfter none (history key polls)).isSome := by
    rw [← AList.mem_keys, ← AList.lookup_isSome, h.opened, Option.isSome_map]
  have hafter (key : GapKey) : openAfter (openAfter none (history key polls))
      (trialsOf key (tracker.openGaps.keys.map (·, time, true))) = none := by
    rw [hkeys]
    split
    · rfl
    · next hkey =>
      exact Option.not_isSome_iff_eq_none.mp (mt (hopen key).mpr hkey)
  have hended (key : GapKey) : closings (openAfter none (history key polls))
      (trialsOf key (tracker.openGaps.keys.map (·, time, true))) =
        (openAfter none (history key polls)).toList.map (·, time) := by
    rw [hkeys]
    split
    · exact List.append_nil _
    · next hkey =>
      rw [Option.not_isSome_iff_eq_none.mp (mt (hopen key).mpr hkey)]
      rfl
  have hclosed := h.tryAll (tracker.openGaps.keys.map (·, time, true))
  simp only [hafter, List.nil_append, ← HealthTracker.closeAll_eq] at hclosed
  have hnil : (tracker.closeAll time).openGaps.entries = [] := by
    apply entries_eq_nil_iff.mpr
    intro key
    exact AList.lookup_eq_none.mp (hclosed.opened key)
  have hgaps := hclosed.gaps_perm (nodup_triedKeys polls) (fun _ hnone => absurd hnone (by simp)) (by
    intro ending hending
    have hkey := mem_keys_of_closingsAll hending
    rw [List.map_map] at hkey
    obtain ⟨key, hkey, hsame⟩ := List.mem_map.mp hkey
    rw [← hsame]
    exact covers_triedKeys polls (mem_keys_of_open ((hopen key).mp hkey)))
  simp only [filter_closingsAll, List.map_map, hended] at hgaps
  constructor
  · exact hnil
  · rw [hnil] at hgaps
    exact hgaps

/-- In every run, a batch reports of every key the episode that is open, since its first failure, and
those that the poll ended, with the success; every episode is reported ended once; at the shutdown
those that are open are ended. -/
theorem gaps_follow_episodes (mapCapacity : ℕ) :
    (∀ past poll, ((HealthCore.runPolls { mapCapacity } past).pollOnce poll).1.gaps.Perm
      ((triedKeys (past ++ [poll])).flatMap fun key => keyReports key past poll)) ∧
    (∀ polls, ((HealthCore.batches { mapCapacity } polls).flatMap fun health =>
      health.gaps.filter fun gap => gap.endedAt.isSome).Perm
        ((triedKeys polls).flatMap fun key => (closings none (history key polls)).map fun ending =>
          key.gap ending.1 (some ending.2))) ∧
    (∀ key polls time, openAfter none (history key polls) = some time ↔
      ∃ before failures, history key polls = before ++ (time, false) :: failures ∧ Settled before ∧
        AllFailed failures) ∧
    (∀ (before failures later : List (SystemTime × Bool)) (time ended : SystemTime), Settled before →
      AllFailed failures →
        closings none (before ++ (time, false) :: failures ++ (ended, true) :: later) =
          closings none before ++ (time, ended) :: closings none later) ∧
    (∀ (before : List (SystemTime × Bool)) (time : SystemTime), Settled before →
      closings none (before ++ [(time, true)]) = closings none before) ∧
    (∀ polls interfaces application time,
      ((HealthCore.runPolls { mapCapacity } polls).health.closeAll time).openGaps.entries = [] ∧
      ∃ health, (HealthCore.runPolls { mapCapacity } polls).shutdown interfaces application
          (.ok () : Except String Unit) time = .ok health ∧
        health.gaps.Perm ((triedKeys polls).flatMap fun key =>
          (openAfter none (history key polls)).toList.map (key.gap · (some time)))) := by
  constructor
  · intro past poll
    exact gaps_pollOnce mapCapacity (nodup_triedKeys _) (covers_triedKeys _)
  constructor
  · intro polls
    exact ended_batches mapCapacity (nodup_triedKeys _) (covers_triedKeys _)
  constructor
  · exact fun _ _ _ => openAfter_eq_some_iff
  constructor
  · exact fun _ _ _ _ _ hsettled hfailed => closings_episode hsettled hfailed
  constructor
  · exact fun _ _ hsettled => closings_settled hsettled
  · intro polls interfaces application time
    obtain ⟨hnil, hclosed⟩ := @closeAll_ends _ _ time (ledger_runPolls mapCapacity polls)
    refine ⟨hnil, _, rfl, ?_⟩
    unfold HealthTracker.snapshot
    simp only [hnil, List.map_nil, List.nil_append]
    exact hclosed

end Runs

end ZimaScope
