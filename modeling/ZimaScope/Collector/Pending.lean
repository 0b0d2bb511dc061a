import ZimaScope.Collector.Lifecycle
import ZimaScope.Collector.Retention

/-! # Pending service labels

A label that comes before the first observation of its Flow is stashed. Nothing
but that observation takes it out again: polls that do not see the Flow leave it
as it is, however many they are.
-/

namespace ZimaScope

def TrackerEvent.isPoll : TrackerEvent → Bool
  | .poll .. => true
  | .service .. | .owner .. => false

/-- No poll sees an entry of the Flow. -/
def Unseen (key : FlowKey) (events : List TrackerEvent) : Prop :=
  ∀ now merged, TrackerEvent.poll now merged ∈ events → ∀ m ∈ merged, m.key ≠ key

/-- No poll sees an entry of the Flow, and no label comes for it. -/
structure Silent (key : FlowKey) (events : List TrackerEvent) : Prop where
  unseen : Unseen key events
  unlabelled : ∀ label, TrackerEvent.service key label ∉ events

section Statement

variable (t : FlowTracker) (key : FlowKey)

/-- After so many polls without its Flow, a label is not pending any more. -/
def Discards : Prop :=
  ∃ n, ∀ later, Silent key later → n ≤ later.countP TrackerEvent.isPoll →
    AList.lookup key (t.run later).2.pendingServices = none

/-- After so many polls without it, a Flow is reported without a label when it is first observed. -/
def StartsUnlabelled : Prop :=
  ∃ n, ∀ later, Silent key later → n ≤ later.countP TrackerEvent.isPoll →
    ∀ merged now generation, merged.key = key → AList.lookup key (t.run later).2.previous = none →
      ∀ update ∈ ((t.run later).2.observe merged now generation).1, update.service = none

/-- A label for a Flow that is not held is stashed. -/
def Stashes : Prop :=
  ∀ key label, AList.lookup key t.previous = none →
    AList.lookup key (t.setService key label).pendingServices = some label

/-- After so many polls without the Flows of the pending labels, new labels are stashed. -/
def AcceptsLabels : Prop :=
  ∃ n, ∀ later, (∀ key label, TrackerEvent.service key label ∉ later) →
    (∀ key ∈ t.pendingServices, Unseen key later) →
      n ≤ later.countP TrackerEvent.isPoll → Stashes (t.run later).2

end Statement

/-! ## What an observation takes -/

section Observe

variable (t : FlowTracker) (merged : MergedFlow) (now : Instant) (generation : ℕ)

theorem pending_observe_of_ne {key : FlowKey} (h : merged.key ≠ key) :
    AList.lookup key (t.observe merged now generation).2.pendingServices =
      AList.lookup key t.pendingServices := by
  unfold FlowTracker.observe
  cases AList.lookup merged.key t.previous with
  | none => exact AList.lookup_erase_ne h.symm
  | some previous => rfl

/-- The observation of a Flow without a pending label leaves the table as it is. -/
theorem pendingServices_observe (h : merged.key ∉ t.pendingServices) :
    (t.observe merged now generation).2.pendingServices = t.pendingServices := by
  unfold FlowTracker.observe
  cases AList.lookup merged.key t.previous with
  | none => exact AList.ext (List.kerase_of_notMem_keys h)
  | some previous => rfl

theorem pending_observeAll {key : FlowKey} {ms : List MergedFlow} (h : ∀ m ∈ ms, m.key ≠ key) :
    AList.lookup key (FlowTracker.observeAll now generation t ms).2.pendingServices =
      AList.lookup key t.pendingServices := by
  induction ms generalizing t with
  | nil => rfl
  | cons m ms ih =>
    have hrest := ih (t.observe m now generation).2 fun x hx => h x (List.mem_cons_of_mem _ hx)
    exact hrest.trans (pending_observe_of_ne t m now generation (h m List.mem_cons_self))

theorem pendingServices_observeAll {ms : List MergedFlow}
    (h : ∀ m ∈ ms, m.key ∉ t.pendingServices) :
    (FlowTracker.observeAll now generation t ms).2.pendingServices = t.pendingServices := by
  induction ms generalizing t with
  | nil => rfl
  | cons m ms ih =>
    have hfirst := pendingServices_observe t m now generation (h m List.mem_cons_self)
    have hrest := ih (t.observe m now generation).2 (by
      rw [hfirst]
      exact fun x hx => h x (List.mem_cons_of_mem _ hx))
    exact hrest.trans hfirst

/-- A Flow that is not seen is not held if it was not. -/
theorem absent_observeAll {key : FlowKey} {ms : List MergedFlow} (h : ∀ m ∈ ms, m.key ≠ key) :
    AList.lookup key (FlowTracker.observeAll now generation t ms).2.previous =
      AList.lookup key t.previous :=
  ((observeAll_observes now generation t key ms).2.1)
    (List.filter_eq_nil_iff.mpr fun m hm => by simpa using h m hm)

end Observe

/-! ## Runs without the Flow -/

section Run

variable (t : FlowTracker) {key : FlowKey}

theorem pendingServices_recordOwner (owner : OwnerKey) (value : OwnerValue) (at' : Instant) :
    (t.recordOwner owner value at').pendingServices = t.pendingServices := by
  unfold FlowTracker.recordOwner
  split <;> rfl

theorem pending_handle {event : TrackerEvent} (h : Silent key [event]) :
    AList.lookup key (t.handle event).2.pendingServices = AList.lookup key t.pendingServices := by
  cases event with
  | poll now merged =>
    have hunseen := h.unseen now merged List.mem_cons_self
    exact pending_observeAll _ now _ hunseen
  | service key' label =>
    have hne : key ≠ key' := by
      rintro rfl
      exact h.unlabelled label List.mem_cons_self
    unfold FlowTracker.handle FlowTracker.setService
    simp only
    split
    · rfl
    · split
      · exact AList.lookup_insert_ne hne
      · rfl
  | owner key' value at' =>
    exact congrArg (AList.lookup key) (pendingServices_recordOwner t key' value at')

theorem absent_handle {event : TrackerEvent} (h : Unseen key [event])
    (ht : AList.lookup key t.previous = none) :
    AList.lookup key (t.handle event).2.previous = none := by
  cases event with
  | poll now merged =>
    have hunseen := h now merged List.mem_cons_self
    have hobserved := absent_observeAll
      { t with
        generation := { t with merged }.nextGeneration
        clock := { t with merged }.anchored now
        merged := [] } now { t with merged }.nextGeneration hunseen
    refine ((ageMissing_spec now _ _ key).2).trans ?_
    rw [hobserved, ht]
    rfl
  | service key' label =>
    have hsame := heldBy_setService PreviousFlow.state t key (fun _ _ => rfl) key' label
    unfold FlowTracker.heldBy at hsame
    rw [ht, Option.map_none, Option.map_eq_none_iff] at hsame
    exact hsame
  | owner key' value at' =>
    exact (congrArg (AList.lookup key) (previous_recordOwner t key' value at').1).trans ht

theorem Silent.cons {event : TrackerEvent} {events : List TrackerEvent}
    (h : Silent key (event :: events)) : Silent key [event] ∧ Silent key events := by
  constructor
  · constructor
    · intro now merged hm
      obtain rfl := List.mem_singleton.mp hm
      exact h.unseen now merged List.mem_cons_self
    · intro label hm
      exact h.unlabelled label (List.mem_singleton.mp hm ▸ List.mem_cons_self)
  · constructor
    · exact fun now merged hm => h.unseen now merged (List.mem_cons_of_mem _ hm)
    · exact fun label hm => h.unlabelled label (List.mem_cons_of_mem _ hm)

/-- Nothing but an observation of its Flow takes a label out, or lets the Flow be held. -/
theorem pending_run {events : List TrackerEvent} (h : Silent key events) :
    AList.lookup key (t.run events).2.pendingServices = AList.lookup key t.pendingServices ∧
      (AList.lookup key t.previous = none → AList.lookup key (t.run events).2.previous = none) := by
  induction events generalizing t with
  | nil => exact ⟨rfl, id⟩
  | cons event events ih =>
    obtain ⟨hevent, hevents⟩ := h.cons
    obtain ⟨hpending, habsent⟩ := ih (t.handle event).2 hevents
    exact ⟨hpending.trans (pending_handle t hevent),
      fun ht => habsent (absent_handle t hevent.unseen ht)⟩

/-- Without new labels, and without the Flows of the pending ones, the table stays as it is. -/
theorem pendingServices_run {events : List TrackerEvent}
    (hlabels : ∀ key label, TrackerEvent.service key label ∉ events)
    (hunseen : ∀ key ∈ t.pendingServices, Unseen key events) :
    (t.run events).2.pendingServices = t.pendingServices := by
  induction events generalizing t with
  | nil => rfl
  | cons event events ih =>
    have hevent : (t.handle event).2.pendingServices = t.pendingServices := by
      cases event with
      | poll now merged =>
        refine pendingServices_observeAll _ now _ fun m hm hpending => ?_
        exact hunseen m.key hpending now merged List.mem_cons_self m hm rfl
      | service key label => exact absurd List.mem_cons_self (hlabels key label)
      | owner key value at' => exact pendingServices_recordOwner t key value at'
    refine (ih (t.handle event).2 (fun key label hm => hlabels key label (.tail _ hm)) ?_).trans
      hevent
    rw [hevent]
    exact fun key hkey now merged hm => hunseen key hkey now merged (List.mem_cons_of_mem _ hm)

end Run

/-! ## Pending labels are of Flows that are not held -/

/-- A label is pending only for a Flow that is not held. -/
def Apart (t : FlowTracker) : Prop :=
  ∀ key ∈ t.pendingServices, AList.lookup key t.previous = none

section Apart

variable {t : FlowTracker} (h : Apart t)

include h

theorem Apart.observe (merged : MergedFlow) (now : Instant) (generation : ℕ) :
    Apart (t.observe merged now generation).2 := by
  intro key hkey
  by_cases hne : key = merged.key
  · subst hne
    unfold FlowTracker.observe at hkey
    cases hp : AList.lookup merged.key t.previous with
    | none =>
      rw [hp] at hkey
      exact absurd rfl (AList.mem_erase.mp hkey).1
    | some previous =>
      rw [hp] at hkey
      rw [h merged.key hkey] at hp
      cases hp
  · rw [lookup_observe_of_ne t merged now generation hne]
    apply h
    rw [← AList.lookup_isSome] at hkey ⊢
    rwa [pending_observe_of_ne t merged now generation (Ne.symm hne)] at hkey

theorem Apart.observeAll (now : Instant) (generation : ℕ) (ms : List MergedFlow) :
    Apart (FlowTracker.observeAll now generation t ms).2 := by
  induction ms generalizing t with
  | nil => exact h
  | cons m ms ih => exact ih (h.observe m now generation)

theorem Apart.handle (event : TrackerEvent) : Apart (t.handle event).2 := by
  cases event with
  | poll now merged =>
    have hstart : Apart { t with
        generation := { t with merged }.nextGeneration
        clock := { t with merged }.anchored now
        merged := [] } := h
    have hobserved := hstart.observeAll now { t with merged }.nextGeneration merged
    intro key hkey
    refine ((ageMissing_spec now _ _ key).2).trans ?_
    rw [hobserved key hkey]
    rfl
  | service key' label =>
    intro key hkey
    change key ∈ (t.setService key' label).pendingServices at hkey
    have hsame := heldBy_setService PreviousFlow.state t key (fun _ _ => rfl) key' label
    unfold FlowTracker.heldBy at hsame
    have hnone : AList.lookup key t.previous = none := by
      unfold FlowTracker.setService at hkey
      cases hp : AList.lookup key' t.previous with
      | none =>
        rw [hp] at hkey
        simp only at hkey
        split at hkey
        · rcases (AList.mem_insert _).mp hkey with rfl | hkey
          · exact hp
          · exact h key hkey
        · exact h key hkey
      | some previous =>
        rw [hp] at hkey
        exact h key hkey
    rw [hnone, Option.map_none, Option.map_eq_none_iff] at hsame
    exact hsame
  | owner key' value at' =>
    intro key hkey
    rw [show (t.handle (.owner key' value at')).2.pendingServices = t.pendingServices from
      pendingServices_recordOwner t key' value at'] at hkey
    exact (congrArg (AList.lookup key) (previous_recordOwner t key' value at').1).trans (h key hkey)

theorem Apart.run (events : List TrackerEvent) : Apart (t.run events).2 := by
  induction events generalizing t with
  | nil => exact h
  | cons event events ih => exact ih (h.handle event)

end Apart

/-- The tracker after a run. -/
def trackerAfter (idleTimeout : Duration) (events : List TrackerEvent) : FlowTracker :=
  ((FlowTracker.new idleTimeout).run events).2

theorem apart_trackerAfter (idleTimeout : Duration) (events : List TrackerEvent) :
    Apart (trackerAfter idleTimeout events) := by
  have hnew : Apart (.new idleTimeout) := fun key hkey => nomatch hkey
  exact hnew.run events

/-! ## No bound -/

/-- Polls that see nothing. -/
def emptyPolls (n : ℕ) : List TrackerEvent := List.replicate n (.poll 0 [])

theorem eq_poll_of_mem {n : ℕ} {event : TrackerEvent} (h : event ∈ emptyPolls n) :
    event = .poll 0 [] := List.eq_of_mem_replicate h

theorem unseen_emptyPolls (key : FlowKey) (n : ℕ) : Unseen key (emptyPolls n) := by
  intro now merged hm
  cases eq_poll_of_mem hm
  simp

theorem silent_emptyPolls (key : FlowKey) (n : ℕ) : Silent key (emptyPolls n) :=
  ⟨unseen_emptyPolls key n, fun _ hm => nomatch eq_poll_of_mem hm⟩

theorem countP_emptyPolls (n : ℕ) : (emptyPolls n).countP TrackerEvent.isPoll = n := by
  exact (List.countP_replicate ..).trans (if_pos rfl)

section Bounds

variable {t : FlowTracker} {key : FlowKey}

theorem discards_iff : Discards t key ↔ AList.lookup key t.pendingServices = none := by
  constructor
  · rintro ⟨n, h⟩
    rw [← (pending_run t (silent_emptyPolls key n)).1]
    exact h _ (silent_emptyPolls key n) (countP_emptyPolls n).ge
  · intro h
    exact ⟨0, fun later hsilent _ => (pending_run t hsilent).1.trans h⟩

/-- The first observation of a Flow tells the label that is pending for it. -/
theorem observe_of_absent {merged : MergedFlow} (now : Instant) (generation : ℕ)
    (h : AList.lookup merged.key t.previous = none) :
    ∃ update, (t.observe merged now generation).1 = some update ∧
      update.service = AList.lookup merged.key t.pendingServices := by
  unfold FlowTracker.observe
  rw [h]
  exact ⟨_, rfl, rfl⟩

theorem startsUnlabelled_iff (hapart : Apart t) :
    StartsUnlabelled t key ↔ AList.lookup key t.pendingServices = none := by
  constructor
  · rintro ⟨n, h⟩
    by_contra hpending
    have hheld := hapart key (AList.lookup_isSome.mp (Option.isSome_iff_ne_none.mpr hpending))
    obtain ⟨hsame, habsent⟩ := pending_run t (silent_emptyPolls key n)
    let merged : MergedFlow := { key, total := ⟨1, 1⟩, firstSeenNs := 0, lastSeenNs := 0 }
    obtain ⟨update, hupdate, hservice⟩ :=
      @observe_of_absent (t.run (emptyPolls n)).2 merged 0 0 (habsent hheld)
    have hnone := h _ (silent_emptyPolls key n) (countP_emptyPolls n).ge merged 0 0 rfl
      (habsent hheld) update hupdate
    rw [hservice, hsame] at hnone
    exact hpending hnone
  · intro h
    refine ⟨0, fun later hsilent _ merged now generation hkey habsent update hupdate => ?_⟩
    subst hkey
    obtain ⟨first, hfirst, hservice⟩ :=
      observe_of_absent now generation habsent
    obtain rfl : first = update := Option.some.inj (hfirst.symm.trans hupdate)
    exact hservice.trans ((pending_run t hsilent).1.trans h)

theorem stashes_of_room (h : t.pendingServices.keys.length < pendingServiceCapacity) :
    Stashes t := by
  intro key label habsent
  unfold FlowTracker.setService
  simp only [habsent, if_pos h, AList.lookup_insert]

/-- A full table keeps the label it has for a Flow. -/
theorem not_stashes_of_full (hapart : Apart t)
    (h : pendingServiceCapacity ≤ t.pendingServices.keys.length) : ¬ Stashes t := by
  intro hstashes
  have hpos : 0 < t.pendingServices.keys.length := Nat.lt_of_lt_of_le (by decide) h
  obtain ⟨key, hkey⟩ := List.exists_mem_of_length_pos hpos
  obtain ⟨label, hlabel⟩ := Option.isSome_iff_exists.mp (AList.lookup_isSome.mpr hkey)
  have hother := hstashes key (label ++ "/") (hapart key hkey)
  unfold FlowTracker.setService at hother
  simp only [hapart key hkey, if_neg (Nat.not_lt.mpr h), hlabel, Option.some.injEq] at hother
  simpa using congrArg String.length hother

theorem acceptsLabels_iff (hapart : Apart t) :
    AcceptsLabels t ↔ t.pendingServices.keys.length < pendingServiceCapacity := by
  constructor
  · rintro ⟨n, h⟩
    by_contra hfull
    have hlabels : ∀ key label, TrackerEvent.service key label ∉ emptyPolls n :=
      fun key => (silent_emptyPolls key n).unlabelled
    have hunseen : ∀ key ∈ t.pendingServices, Unseen key (emptyPolls n) :=
      fun key _ => unseen_emptyPolls key n
    refine not_stashes_of_full (hapart.run (emptyPolls n)) ?_
      (h _ hlabels hunseen (countP_emptyPolls n).ge)
    rw [pendingServices_run t hlabels hunseen]
    exact Nat.not_lt.mp hfull
  · intro h
    refine ⟨0, fun later hlabels hunseen _ => stashes_of_room ?_⟩
    rwa [pendingServices_run t hlabels hunseen]

end Bounds

/-- Pending labels are bounded by no number of polls: a label goes, and is not told of
the next Flow, only if there is none, and a full table refuses labels until a Flow comes. -/
theorem pending_labels_iff (idleTimeout : Duration) (events : List TrackerEvent) (key : FlowKey) :
    (Discards (trackerAfter idleTimeout events) key ↔
      AList.lookup key (trackerAfter idleTimeout events).pendingServices = none) ∧
    (StartsUnlabelled (trackerAfter idleTimeout events) key ↔
      AList.lookup key (trackerAfter idleTimeout events).pendingServices = none) ∧
    (AcceptsLabels (trackerAfter idleTimeout events) ↔
      (trackerAfter idleTimeout events).pendingServices.keys.length < pendingServiceCapacity) := by
  have hapart := apart_trackerAfter idleTimeout events
  exact ⟨discards_iff, startsUnlabelled_iff hapart, acceptsLabels_iff hapart⟩

/-- The label of a Flow that no poll has seen. -/
theorem pending_label_stays : ¬ ∀ (idleTimeout : Duration) (events : List TrackerEvent)
    (key : FlowKey), Discards (trackerAfter idleTimeout events) key := by
  intro h
  have hnone := discards_iff.mp (h (fromSecs 30) [.service sshFlow "SSH"] sshFlow)
  revert hnone
  decide +kernel

end ZimaScope
