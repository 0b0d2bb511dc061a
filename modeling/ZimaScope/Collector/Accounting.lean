import ZimaScope.Collector.Tracker
import ZimaScope.Lib.PolledCounter

/-! # Delta accounting

What reconciling does to one Flow: the observations of a polled counter.
Flows of other keys are left alone, and ageing emits no traffic.
-/

namespace ZimaScope

open PolledCounter (Reading Observe ObserveAll)

/-- Packets and bytes, ordered and added together. -/
def TrafficCounters.pair (counters : TrafficCounters) : ℕ × ℕ := (counters.packets, counters.bytes)

def MergedValues.reading (merged : MergedValues) : Reading (ℕ × ℕ) ℕ :=
  ⟨merged.total.pair, merged.lastSeenNs⟩

def PreviousFlow.reading (previous : PreviousFlow) : Reading (ℕ × ℕ) ℕ :=
  ⟨previous.total.pair, previous.lastSeenNs⟩

/-- The sum of the deltas emitted for a Flow. -/
def emitted (key : FlowKey) (updates : List FlowUpdate) : ℕ × ℕ :=
  ((updates.filter fun update => update.key = key).map fun update => update.delta.pair).sum

/-- What the tracker holds of a Flow. -/
def FlowTracker.held (t : FlowTracker) (key : FlowKey) : Option (Reading (ℕ × ℕ) ℕ) :=
  (AList.lookup key t.previous).map PreviousFlow.reading

@[simp] theorem emitted_nil (key : FlowKey) : emitted key [] = 0 := rfl

@[simp] theorem emitted_append (key : FlowKey) (us us' : List FlowUpdate) :
    emitted key (us ++ us') = emitted key us + emitted key us' := by
  simp [emitted]

theorem emitted_singleton (key : FlowKey) (update : FlowUpdate) :
    emitted key [update] = if update.key = key then update.delta.pair else 0 := by
  by_cases h : update.key = key <;> simp [emitted, h]

/-- Updates of other Flows do not count. -/
theorem emitted_eq_zero {key : FlowKey} {updates : List FlowUpdate}
    (h : ∀ update ∈ updates, update.key = key → update.delta.pair = 0) :
    emitted key updates = 0 := by
  apply List.sum_eq_zero
  intro x hx
  obtain ⟨update, hu, rfl⟩ := List.mem_map.mp hx
  obtain ⟨hu, hk⟩ := List.mem_filter.mp hu
  exact h update hu (by simpa using hk)

theorem recreatedBy_iff {previous : PreviousFlow} {merged : MergedFlow} :
    previous.recreatedBy merged = true ↔ ¬ previous.reading.total ≤ merged.reading.total := by
  simp only [PreviousFlow.recreatedBy, PreviousFlow.reading, MergedValues.reading,
    TrafficCounters.pair, Prod.mk_le_mk, Bool.or_eq_true, decide_eq_true_eq, not_and_or, not_le]

theorem recreatedBy_eq_false_iff {previous : PreviousFlow} {merged : MergedFlow} :
    previous.recreatedBy merged = false ↔ previous.reading.total ≤ merged.reading.total := by
  rw [← Bool.not_eq_true, recreatedBy_iff, not_not]

section Observe

variable (t : FlowTracker) (merged : MergedFlow) (now : Instant) (generation : ℕ)

/-- A further observation is one of the counter's. -/
theorem observeAgain_observes (previous : PreviousFlow) :
    let r := t.observeAgain merged now generation previous
    r.2.generation = generation ∧ (∀ update ∈ r.1, update.key = merged.key) ∧
      Observe (some previous.reading) merged.reading (emitted merged.key r.1.toList)
        r.2.reading := by
  have hsame : ∀ application, PreviousFlow.recreatedBy
      { previous with application, generation } merged = previous.recreatedBy merged :=
    fun _ => rfl
  simp only [FlowTracker.observeAgain, hsame]
  split
  · next hquiet =>
    simp only [Bool.and_eq_true, Bool.not_eq_true', Bool.or_eq_false_iff,
      decide_eq_false_iff_not] at hquiet
    obtain ⟨⟨hrec, hseen⟩, _⟩ := hquiet
    exact ⟨rfl, by simp, Observe.quiet (recreatedBy_eq_false_iff.mp hrec) hseen⟩
  · refine ⟨rfl, by simp, ?_⟩
    rw [Option.toList_some, emitted_singleton, if_pos rfl]
    cases hrec : previous.recreatedBy merged with
    | true => exact Observe.restart (recreatedBy_iff.mp hrec)
    | false => exact Observe.advance (recreatedBy_eq_false_iff.mp hrec)

theorem observe_observes :
    let r := t.observe merged now generation
    (∃ previous, AList.lookup merged.key r.2.previous = some previous ∧
        previous.generation = generation ∧
        Observe (t.held merged.key) merged.reading (emitted merged.key r.1.toList)
          previous.reading) ∧
      ∀ update ∈ r.1, update.key = merged.key := by
  unfold FlowTracker.observe FlowTracker.held
  cases hp : AList.lookup merged.key t.previous with
  | none =>
    refine ⟨⟨_, AList.lookup_insert _, rfl, ?_⟩, ?_⟩
    · simp only [Option.toList_some, Option.map_none]
      have hkey : (t.observeNew merged now generation).1.key = merged.key := rfl
      rw [emitted_singleton, if_pos hkey]
      exact Observe.first
    · simp [FlowTracker.observeNew]
  | some previous =>
    obtain ⟨hg, hkey, ho⟩ := observeAgain_observes t merged now generation previous
    exact ⟨⟨_, AList.lookup_insert _, hg, ho⟩, hkey⟩

/-- Other Flows are left as they are. -/
theorem lookup_observe_of_ne {key : FlowKey} (h : key ≠ merged.key) :
    AList.lookup key (t.observe merged now generation).2.previous =
      AList.lookup key t.previous := by
  unfold FlowTracker.observe
  cases AList.lookup merged.key t.previous with
  | none => exact AList.lookup_insert_ne h
  | some previous => exact AList.lookup_insert_ne h

theorem merged_observe : (t.observe merged now generation).2.merged = t.merged := by
  unfold FlowTracker.observe
  cases AList.lookup merged.key t.previous <;> rfl

end Observe

section Reconcile

variable (now : Instant) (generation : ℕ)

/-- The merged entries of one Flow, in order. -/
def mergedOf (key : FlowKey) (ms : List MergedFlow) : List MergedFlow :=
  ms.filter fun merged => merged.key = key

/-- The loop over the merged entries observes one Flow as often as it was visited. -/
theorem observeAll_observes (t : FlowTracker) (key : FlowKey) (ms : List MergedFlow) :
    let r := FlowTracker.observeAll now generation t ms
    ObserveAll (t.held key) ((mergedOf key ms).map fun m => m.reading) (emitted key r.1)
        (r.2.held key) ∧
      (mergedOf key ms = [] → AList.lookup key r.2.previous = AList.lookup key t.previous) ∧
      (mergedOf key ms ≠ [] → ∃ previous, AList.lookup key r.2.previous = some previous ∧
        previous.generation = generation) := by
  induction ms generalizing t with
  | nil => exact ⟨ObserveAll.nil, fun _ => rfl, fun h => absurd rfl h⟩
  | cons m ms ih =>
    obtain ⟨⟨previous, hl, hg, ho⟩, hkey⟩ := observe_observes t m now generation
    obtain ⟨hrest, hsame, hseen⟩ := ih (t.observe m now generation).2
    simp only [FlowTracker.observeAll, emitted_append]
    by_cases hm : m.key = key
    · subst hm
      have hof : mergedOf m.key (m :: ms) = m :: mergedOf m.key ms :=
        List.filter_cons_of_pos (by simp)
      have hheld : (t.observe m now generation).2.held m.key = some previous.reading := by
        rw [FlowTracker.held, hl]
        rfl
      rw [hheld] at hrest
      rw [hof]
      refine ⟨ObserveAll.cons ho hrest, fun h => by simp at h, fun _ => ?_⟩
      by_cases hnil : mergedOf m.key ms = []
      · exact ⟨previous, (hsame hnil).trans hl, hg⟩
      · exact hseen hnil
    · have hof : mergedOf key (m :: ms) = mergedOf key ms :=
        List.filter_cons_of_neg (by simpa using hm)
      have hlookup := lookup_observe_of_ne t m now generation (Ne.symm hm)
      have hheld : (t.observe m now generation).2.held key = t.held key := by
        rw [FlowTracker.held, hlookup, FlowTracker.held]
      have hzero : emitted key (t.observe m now generation).1.toList = 0 :=
        emitted_eq_zero fun update hu hk =>
          absurd ((hkey update (by simpa using hu)).symm.trans hk) hm
      rw [hof, hzero, zero_add]
      rw [hheld] at hrest
      rw [hlookup] at hsame
      exact ⟨hrest, hsame, hseen⟩

/-- Ageing emits no traffic and keeps what the poll observed. -/
theorem ageMissing_spec (t : FlowTracker) (key : FlowKey) :
    emitted key (t.ageMissing now generation).1 = 0 ∧
      AList.lookup key (t.ageMissing now generation).2.previous =
        (AList.lookup key t.previous).filter fun previous => t.keeps now generation previous := by
  refine ⟨emitted_eq_zero fun update hu _ => ?_, HashMap.lookup_retain _ _ _⟩
  obtain ⟨e, _, hclose⟩ := List.mem_filterMap.mp hu
  unfold FlowTracker.closingUpdate at hclose
  split at hclose
  · simp at hclose
  · obtain rfl := Option.some.inj hclose
    rfl

/-- Reconciling observes what was merged; only a Flow that was not visited is forgotten. -/
theorem reconcile_observes (t : FlowTracker) (key : FlowKey) :
    let r := t.reconcile now
    ∃ held, ObserveAll (t.held key) ((mergedOf key t.merged).map fun m => m.reading)
        (emitted key r.1) held ∧
      (r.2.held key = held ∨ (mergedOf key t.merged = [] ∧ r.2.held key = none)) := by
  let t₀ : FlowTracker :=
    { t with generation := t.nextGeneration, clock := t.anchored now, merged := [] }
  let t₁ := (FlowTracker.observeAll now t.nextGeneration t₀ t.merged).2
  obtain ⟨ho, _, hseen⟩ := observeAll_observes now t.nextGeneration t₀ key t.merged
  obtain ⟨hzero, hlookup⟩ := ageMissing_spec now t.nextGeneration t₁ key
  have hupdates : emitted key (t.reconcile now).1 =
      emitted key (FlowTracker.observeAll now t.nextGeneration t₀ t.merged).1 := by
    have hsplit : (t.reconcile now).1 =
        (FlowTracker.observeAll now t.nextGeneration t₀ t.merged).1 ++
          (t₁.ageMissing now t.nextGeneration).1 := rfl
    rw [hsplit, emitted_append, hzero, add_zero]
  have hheld : (t.reconcile now).2.held key =
      ((AList.lookup key t₁.previous).filter fun previous =>
        t₁.keeps now t.nextGeneration previous).map PreviousFlow.reading := by
    rw [← hlookup]
    rfl
  refine ⟨t₁.held key, by rw [hupdates]; exact ho, ?_⟩
  rw [hheld]
  by_cases hnil : mergedOf key t.merged = []
  · cases hp : AList.lookup key t₁.previous with
    | none => exact Or.inl (by rw [FlowTracker.held, hp]; rfl)
    | some previous =>
      cases hk : t₁.keeps now t.nextGeneration previous with
      | true => exact Or.inl (by rw [FlowTracker.held, hp, Option.filter_some, if_pos hk])
      | false => exact Or.inr ⟨hnil, by rw [Option.filter_some, hk]; rfl⟩
  · obtain ⟨previous, hp, hg⟩ := hseen hnil
    have hkeeps : t₁.keeps now t.nextGeneration previous = true := by
      simp [FlowTracker.keeps, hg]
    exact Or.inl (by rw [FlowTracker.held, hp, Option.filter_some, if_pos hkeeps])

theorem merged_observeAll (t : FlowTracker) (ms : List MergedFlow) :
    (FlowTracker.observeAll now generation t ms).2.merged = t.merged := by
  induction ms generalizing t with
  | nil => rfl
  | cons m ms ih => exact (ih _).trans (merged_observe t m now generation)

/-- Reconciling empties the buffer. -/
theorem merged_reconcile (t : FlowTracker) : (t.reconcile now).2.merged = [] :=
  merged_observeAll now t.nextGeneration
    { t with generation := t.nextGeneration, clock := t.anchored now, merged := [] } t.merged

end Reconcile

section Between

theorem held_setService (t : FlowTracker) (key key' : FlowKey) (label : String) :
    (t.setService key label).held key' = t.held key' := by
  unfold FlowTracker.setService FlowTracker.held
  cases hp : AList.lookup key t.previous with
  | none =>
    simp only
    split <;> rfl
  | some previous =>
    by_cases hk : key' = key
    · subst hk
      rw [AList.lookup_insert, hp]
      rfl
    · rw [AList.lookup_insert_ne hk]

theorem merged_setService (t : FlowTracker) (key : FlowKey) (label : String) :
    (t.setService key label).merged = t.merged := by
  unfold FlowTracker.setService
  split
  · rfl
  · split <;> rfl

theorem previous_recordOwner (t : FlowTracker) (key : OwnerKey) (value : OwnerValue)
    (at' : Instant) : (t.recordOwner key value at').previous = t.previous ∧
      (t.recordOwner key value at').merged = t.merged := by
  unfold FlowTracker.recordOwner
  split <;> exact ⟨rfl, rfl⟩

end Between

end ZimaScope
