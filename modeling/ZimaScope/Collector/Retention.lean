import ZimaScope.Collector.Lifecycle
import ZimaScope.Collector.Polls

/-! # Retention of missing Flows

What the tracker emits of a kernel entry that keeps its counters but is missing
from some polls. An ended Flow is kept for a while in case its entry comes back;
an active one is dropped as soon as it has been idle for the timeout.
-/

namespace ZimaScope

open PolledCounter (Reading ObserveAll totalOf)

/-- The merged entries of one Flow over a run. -/
def sightings (key : FlowKey) (events : List TrackerEvent) : List MergedFlow :=
  events.flatMap fun
    | .poll _ merged => mergedOf key merged
    | .service .. | .owner .. => []

/-- Asked of every poll that misses the Flow while the tracker holds it, before it is seen again. -/
def AtGaps (P : Instant → PreviousFlow → Prop) (key : FlowKey) :
    FlowTracker → List TrackerEvent → Prop
  | _, [] => True
  | t, .poll now merged :: events =>
    (mergedOf key merged = [] → sightings key events ≠ [] →
      ∀ held ∈ AList.lookup key t.previous, P now held) ∧
    AtGaps P key (t.handle (.poll now merged)).2 events
  | t, .service key' label :: events => AtGaps P key (t.handle (.service key' label)).2 events
  | t, .owner key' value at' :: events => AtGaps P key (t.handle (.owner key' value at')).2 events

/-- The condition can be checked by running the tracker. -/
instance AtGaps.decide (P : Instant → PreviousFlow → Prop) [∀ now held, Decidable (P now held)]
    (key : FlowKey) : ∀ t events, Decidable (AtGaps P key t events)
  | _, [] => isTrue trivial
  | t, .poll now merged :: events =>
    have := AtGaps.decide P key (t.handle (.poll now merged)).2 events
    have : Decidable (mergedOf key merged = []) := decidable_of_iff _ List.isEmpty_iff
    have : Decidable (sightings key events = []) := decidable_of_iff _ List.isEmpty_iff
    inferInstanceAs (Decidable ((_ → _ → _) ∧ _))
  | t, .service key' label :: events =>
    AtGaps.decide P key (t.handle (.service key' label)).2 events
  | t, .owner key' value at' :: events =>
    AtGaps.decide P key (t.handle (.owner key' value at')).2 events

section Gaps

variable {P : Instant → PreviousFlow → Prop} {t : FlowTracker} {key : FlowKey}

theorem AtGaps.tail {event : TrackerEvent} {events : List TrackerEvent}
    (h : AtGaps P key t (event :: events)) : AtGaps P key (t.handle event).2 events := by
  cases event with
  | poll => exact h.2
  | service | owner => exact h

theorem keeps_of_idleTimeout_eq {t t' : FlowTracker} (h : t.idleTimeout = t'.idleTimeout) :
    t.keeps = t'.keeps := by
  unfold FlowTracker.keeps FlowTracker.endedRetention
  rw [h]

/-- A Flow that a poll misses is held as before, or forgotten for its age. -/
theorem lookup_reconcile_of_missed (now : Instant) (hm : mergedOf key t.merged = []) :
    AList.lookup key (t.reconcile now).2.previous =
      (AList.lookup key t.previous).filter fun previous => t.keeps now t.nextGeneration previous := by
  let t₀ : FlowTracker :=
    { t with generation := t.nextGeneration, clock := t.anchored now, merged := [] }
  let t₁ := (FlowTracker.observeAll now t.nextGeneration t₀ t.merged).2
  obtain ⟨_, hsame, _⟩ := observeAll_observes now t.nextGeneration t₀ key t.merged
  have hage := (ageMissing_spec now t.nextGeneration t₁ key).2
  have hkeeps : t₁.keeps = t.keeps :=
    keeps_of_idleTimeout_eq (idleTimeout_observeAll t₀ now t.nextGeneration t.merged)
  rw [hkeeps] at hage
  exact hage.trans (by rw [hsame hm])

theorem keeps_of_young {now : Instant} {held : PreviousFlow} (generation : ℕ)
    (hended : Instant.saturatingDurationSince now held.lastSeen < t.endedRetention)
    (hactive : held.state = .active →
      Instant.saturatingDurationSince now held.lastSeen < t.idleTimeout) :
    t.keeps now generation held = true := by
  unfold FlowTracker.keeps
  by_cases hs : held.state = .active
  · simp [hs, hactive hs]
  · simp [hs, hended]

/-- What an event does to the reading held of a Flow. -/
theorem handle_observes (t : FlowTracker) (event : TrackerEvent) (key : FlowKey) :
    ∃ held, ObserveAll (t.held key) ((sightings key [event]).map fun m => m.reading)
        (emitted key (t.handle event).1) held ∧
      ((t.handle event).2.held key = held ∨ sightings key [event] = []) := by
  cases event with
  | poll now merged =>
    obtain ⟨held, ho, hheld⟩ := reconcile_observes now { t with merged } key
    have hseen : sightings key [.poll now merged] = mergedOf key merged := List.append_nil _
    rw [hseen]
    exact ⟨held, ho, hheld.imp_right And.left⟩
  | service key' label => exact ⟨t.held key, .nil, Or.inr rfl⟩
  | owner key' value at' => exact ⟨t.held key, .nil, Or.inr rfl⟩

/-- A Flow that is kept over the gaps is held while it is not seen. -/
theorem held_handle_of_unseen {t₀ : FlowTracker} (h₀ : t.idleTimeout = t₀.idleTimeout)
    {event : TrackerEvent} {events : List TrackerEvent}
    (hended : AtGaps (fun now held =>
      Instant.saturatingDurationSince now held.lastSeen < t₀.endedRetention) key t (event :: events))
    (hactive : AtGaps (fun now held => held.state = .active →
      Instant.saturatingDurationSince now held.lastSeen < t₀.idleTimeout) key t (event :: events))
    (hunseen : sightings key [event] = []) (hagain : sightings key events ≠ []) :
    (t.handle event).2.held key = t.held key := by
  cases event with
  | poll now merged =>
    have hseen : sightings key [.poll now merged] = mergedOf key merged := List.append_nil _
    rw [hseen] at hunseen
    have hlookup := lookup_reconcile_of_missed (t := { t with merged }) now hunseen
    change (AList.lookup key ({ t with merged }.reconcile now).2.previous).map _ = _
    rw [hlookup, FlowTracker.held]
    cases hp : AList.lookup key t.previous with
    | none => rfl
    | some held =>
      have hkeeps := keeps_of_young { t with merged }.nextGeneration
        (hended.1 hunseen hagain held hp) (hactive.1 hunseen hagain held hp)
      have hkeeps' : FlowTracker.keeps { t with merged } = t₀.keeps := keeps_of_idleTimeout_eq h₀
      rw [Option.filter_some, hkeeps', hkeeps]
      rfl
  | service key' label => exact held_setService t key' key label
  | owner key' value at' =>
    rw [FlowTracker.held, FlowTracker.handle, (previous_recordOwner _ _ _ _).1, FlowTracker.held]

end Gaps

section Run

variable {key : FlowKey}

theorem sightings_cons (event : TrackerEvent) (events : List TrackerEvent) :
    sightings key (event :: events) = sightings key [event] ++ sightings key events := by
  simp [sightings]

theorem emitted_run_cons (t : FlowTracker) (event : TrackerEvent) (events : List TrackerEvent) :
    emitted key (t.run (event :: events)).1 =
      emitted key (t.handle event).1 + emitted key ((t.handle event).2.run events).1 :=
  emitted_append key _ _

/-- A Flow that is not seen emits no traffic. -/
theorem emitted_of_unseen (t : FlowTracker) {events : List TrackerEvent}
    (h : sightings key events = []) : emitted key (t.run events).1 = 0 := by
  induction events generalizing t with
  | nil => rfl
  | cons event events ih =>
    rw [sightings_cons, List.append_eq_nil_iff] at h
    obtain ⟨held, ho, _⟩ := handle_observes t event key
    rw [h.1] at ho
    rw [emitted_run_cons, ih _ h.2, ho.eq_of_nil.1, add_zero]

/-- While totals do not go down and the Flow is kept over the gaps, what is held
and what is emitted add up to at most the total seen last. -/
theorem held_add_emitted_le {t : FlowTracker} (t₀ : FlowTracker) (h₀ : t.idleTimeout = t₀.idleTimeout)
    {events : List TrackerEvent}
    (hm : (totalOf (t.held key) :: (sightings key events).map fun m => m.reading.total).Pairwise
      (· ≤ ·))
    (hended : AtGaps (fun now held =>
      Instant.saturatingDurationSince now held.lastSeen < t₀.endedRetention) key t events)
    (hactive : AtGaps (fun now held => held.state = .active →
      Instant.saturatingDurationSince now held.lastSeen < t₀.idleTimeout) key t events)
    {last : MergedFlow} (hlast : (sightings key events).getLast? = some last) :
    totalOf (t.held key) + emitted key (t.run events).1 ≤ last.reading.total := by
  induction events generalizing t with
  | nil => simp [sightings] at hlast
  | cons event events ih =>
    obtain ⟨held, ho, hheld⟩ := handle_observes t event key
    rw [sightings_cons, List.map_append, ← List.cons_append] at hm
    obtain ⟨hhere, hlater, hcross⟩ := List.pairwise_append.mp hm
    have hhere' : (totalOf (t.held key) ::
        ((sightings key [event]).map fun m => m.reading).map Reading.total).Pairwise (· ≤ ·) := by
      rwa [List.map_map]
    obtain ⟨htotal, hq⟩ := ho.total hhere'
    rw [sightings_cons, List.getLast?_append] at hlast
    rw [emitted_run_cons, ← add_assoc, htotal]
    have hended' := hended.tail
    have hactive' := hactive.tail
    by_cases hagain : sightings key events = []
    · -- the Flow has been seen for the last time
      rw [hagain, List.getLast?_nil, Option.none_or] at hlast
      rw [emitted_of_unseen _ hagain, add_zero]
      obtain ⟨front, hfront⟩ := List.getLast?_eq_some_iff.mp hlast
      rw [hfront, List.map_append, List.map_append, ← List.cons_append] at hhere' hq
      rcases List.mem_append.mp hq with hq | hq
      · exact (List.pairwise_append.mp hhere').2.2 _ hq _ (by simp)
      · simp only [List.map_cons, List.map_nil, List.mem_singleton] at hq
        exact hq.le
    · have hnext : (t.handle event).2.held key = held := by
        rcases hheld with hheld | hnil
        · exact hheld
        · rw [hnil] at ho
          rw [ho.eq_of_nil.2]
          exact held_handle_of_unseen h₀ hended hactive hnil hagain
      have hlast' : (sightings key events).getLast? = some last := by
        cases hl : (sightings key events).getLast? with
        | none => exact absurd (List.getLast?_eq_none_iff.mp hl) hagain
        | some m => rwa [hl, Option.some_or] at hlast
      have hrest : (totalOf ((t.handle event).2.held key) ::
          (sightings key events).map fun m => m.reading.total).Pairwise (· ≤ ·) := by
        rw [hnext]
        rw [List.map_map] at hq
        exact List.pairwise_cons.mpr ⟨hcross _ hq, hlater⟩
      have hrun := ih ((idleTimeout_handle t event).trans h₀) hrest hended' hactive' hlast'
      rwa [hnext] at hrun

/-- A Flow whose entry keeps its counters is not counted twice when it comes
back to a tracker that has not forgotten it: an ended Flow within the retention
window, and an active one before it has been missing for the idle timeout. -/
theorem emitted_le_of_kept (idleTimeout : Duration) (key : FlowKey) (events : List TrackerEvent)
    (hm : ((sightings key events).map fun m => m.reading.total).Pairwise (· ≤ ·))
    (hended : AtGaps (fun now held => Instant.saturatingDurationSince now held.lastSeen <
      (FlowTracker.new idleTimeout).endedRetention) key (.new idleTimeout) events)
    (hactive : AtGaps (fun now held => held.state = .active →
      Instant.saturatingDurationSince now held.lastSeen < idleTimeout) key (.new idleTimeout) events)
    {last : MergedFlow} (hlast : (sightings key events).getLast? = some last) :
    emitted key ((FlowTracker.new idleTimeout).run events).1 ≤ last.reading.total := by
  have hheld : (FlowTracker.new idleTimeout).held key = none := rfl
  have hstart : (totalOf ((FlowTracker.new idleTimeout).held key) ::
      (sightings key events).map fun m => m.reading.total).Pairwise (· ≤ ·) := by
    rw [hheld]
    exact List.pairwise_cons.mpr ⟨fun x _ => zero_le, hm⟩
  have hle := held_add_emitted_le (.new idleTimeout) rfl hstart hended hactive hlast
  rwa [hheld, PolledCounter.totalOf_none, zero_add] at hle

end Run

section Example

def sshSighting (packets bytes lastSeenNs : ℕ) : MergedFlow where
  total := ⟨packets, bytes⟩
  firstSeenNs := 100
  lastSeenNs := lastSeenNs
  key := sshFlow

/-- A poll in the middle misses the entry. -/
def shortGap : List TrackerEvent :=
  [.poll 0 [sshSighting 5 500 200], .poll 10000000000 [], .poll 20000000000 [sshSighting 6 600 400]]

theorem emitted_shortGap :
    emitted sshFlow ((FlowTracker.new (fromSecs 30)).run shortGap).1 ≤
      (sshSighting 6 600 400).reading.total :=
  emitted_le_of_kept (fromSecs 30) sshFlow shortGap (by decide +kernel) (by decide +kernel)
    (by decide +kernel) rfl

/-- The same when the poll comes as late as the idle timeout. -/
def longGap : List TrackerEvent :=
  [.poll 0 [sshSighting 5 500 200], .poll 30000000000 [], .poll 31000000000 [sshSighting 5 500 200]]

/-- The entry keeps its counters and comes back well within the retention
window, and all its traffic is emitted again. -/
theorem longGap_counts_twice :
    ((sightings sshFlow longGap).map fun m => m.reading.total).Pairwise (· ≤ ·) ∧
      AtGaps (fun now held => Instant.saturatingDurationSince now held.lastSeen <
        (FlowTracker.new (fromSecs 30)).endedRetention) sshFlow (.new (fromSecs 30)) longGap ∧
      (sightings sshFlow longGap).getLast? = some (sshSighting 5 500 200) ∧
      emitted sshFlow ((FlowTracker.new (fromSecs 30)).run longGap).1 = (10, 1000) ∧
      ¬ emitted sshFlow ((FlowTracker.new (fromSecs 30)).run longGap).1 ≤
        (sshSighting 5 500 200).reading.total := by
  exact ⟨by decide +kernel, by decide +kernel, rfl, by decide +kernel, by decide +kernel⟩

end Example

end ZimaScope
