import ZimaScope.Collector.Accounting

/-! # Flow lifecycle

A run of a tracker, seen from one Flow: a chain of moments at which the tracked
entry is observed, or a poll ends and missing entries age. Every moment is one
of six kinds, and from these follows what the stream of updates looks like.
-/

namespace ZimaScope

/-- What happens to a tracker: a poll with its merged entries, and what arrives between polls. -/
inductive TrackerEvent
  | poll (now : Instant) (merged : List MergedFlow)
  | service (key : FlowKey) (label : String)
  | owner (key : OwnerKey) (value : OwnerValue) (at' : Instant)

namespace FlowTracker

def handle (t : FlowTracker) : TrackerEvent → List FlowUpdate × FlowTracker
  | .poll now merged => { t with merged }.reconcile now
  | .service key label => ([], t.setService key label)
  | .owner key value at' => ([], t.recordOwner key value at')

def run (t : FlowTracker) : List TrackerEvent → List FlowUpdate × FlowTracker
  | [] => ([], t)
  | event :: events =>
    let (updates, t) := t.handle event
    let (rest, t) := run t events
    (updates ++ rest, t)

end FlowTracker

/-! ## Moments -/

/-- One thing that happens to the tracked entry of a Flow: a merged entry is
observed, or the poll ends. -/
structure Moment where
  now : Instant
  seen : Option MergedFlow
  before : Option PreviousFlow
  updates : List FlowUpdate
  after : Option PreviousFlow

section Moments

variable (key : FlowKey)

/-- The observations of one Flow in the loop over the merged entries. -/
def observeMoments (now : Instant) (generation : ℕ) (t : FlowTracker) : List MergedFlow → List Moment
  | [] => []
  | merged :: rest =>
    let (update, t') := t.observe merged now generation
    let moments := observeMoments now generation t' rest
    if merged.key = key then
      ⟨now, some merged, AList.lookup key t.previous, update.toList,
        AList.lookup key t'.previous⟩ :: moments
    else moments

/-- The updates of one Flow. -/
def updatesOf (updates : List FlowUpdate) : List FlowUpdate :=
  updates.filter fun update => update.key = key

theorem updatesOf_append (us us' : List FlowUpdate) :
    updatesOf key (us ++ us') = updatesOf key us ++ updatesOf key us' :=
  List.filter_append _ _

/-- One poll: what it observes of the Flow, and the ageing at its end. -/
def pollMoments (t : FlowTracker) (now : Instant) : List Moment :=
  let t₀ := { t with generation := t.nextGeneration, clock := t.anchored now, merged := [] }
  let t₁ := (FlowTracker.observeAll now t.nextGeneration t₀ t.merged).2
  let (closed, t₂) := t₁.ageMissing now t.nextGeneration
  observeMoments key now t.nextGeneration t₀ t.merged ++
    [⟨now, none, AList.lookup key t₁.previous, updatesOf key closed,
      AList.lookup key t₂.previous⟩]

/-- The moments of one Flow in a run. -/
def moments (t : FlowTracker) : List TrackerEvent → List Moment
  | [] => []
  | .poll now merged :: events =>
    pollMoments key { t with merged } now ++ moments (t.handle (.poll now merged)).2 events
  | .service key' label :: events => moments (t.handle (.service key' label)).2 events
  | .owner key' value at' :: events => moments (t.handle (.owner key' value at')).2 events

end Moments

/-- The kernel entry was reset, or has seen packets since. -/
def PreviousFlow.activeIn (previous : PreviousFlow) (merged : MergedFlow) : Bool :=
  previous.recreatedBy merged || previous.lastSeenNs < merged.lastSeenNs

/-- The state an observation leaves an entry in. -/
def PreviousFlow.stateAfter (idleTimeout : Duration) (previous : PreviousFlow)
    (merged : MergedFlow) (now : Instant) : FlowState :=
  if gainedFlag tcpRst merged previous then .ended .tcpReset
  else if gainedFlag tcpFin merged previous then .ended .tcpFin
  else if !previous.activeIn merged &&
    idleTimeout ≤ Instant.saturatingDurationSince now previous.lastSeen then .ended .idleTimeout
  else .active

namespace Moment

/-- The moments there are. -/
inductive Step (idleTimeout : Duration) : Moment → Prop
  | fresh {now merged update previous} (hu : update.state = .active)
    (hp : previous.state = .active) :
    Step idleTimeout ⟨now, some merged, none, [update], some previous⟩
  | quiet {now merged held previous} (hs : held.state ≠ .active)
    (ha : held.activeIn merged = false) (hp : previous.state = held.state) :
    Step idleTimeout ⟨now, some merged, some held, [], some previous⟩
  | observed {now merged held update previous}
    (ha : held.state = .active ∨ held.activeIn merged = true)
    (hu : update.state = held.stateAfter idleTimeout merged now)
    (hp : previous.state = held.stateAfter idleTimeout merged now) :
    Step idleTimeout ⟨now, some merged, some held, [update], some previous⟩
  | kept {now held} : Step idleTimeout ⟨now, none, held, [], held⟩
  | forgotten {now held} (hs : held.state ≠ .active) :
    Step idleTimeout ⟨now, none, some held, [], none⟩
  | closed {now held update} (hs : held.state = .active)
    (hu : update.state = .ended .evictedOrUnknown) :
    Step idleTimeout ⟨now, none, some held, [update], none⟩

/-- The tracked state, from one moment to the next. -/
def stateBefore (m : Moment) : Option FlowState := m.before.map PreviousFlow.state

def stateAfter (m : Moment) : Option FlowState := m.after.map PreviousFlow.state

/-- The moment shows new activity of the entry. -/
def Activity (m : Moment) : Prop :=
  ∃ merged held, m.seen = some merged ∧ m.before = some held ∧ held.activeIn merged = true

def EmitsEnded (m : Moment) : Prop := ∃ update ∈ m.updates, ∃ reason, update.state = .ended reason

end Moment

/-- An observation emits updates of its Flow only. -/
theorem updatesOf_observe (t : FlowTracker) (merged : MergedFlow) (now : Instant) (generation : ℕ)
    (key : FlowKey) : updatesOf key (t.observe merged now generation).1.toList =
      if merged.key = key then (t.observe merged now generation).1.toList else [] := by
  have hkey := (observe_observes t merged now generation).2
  split
  · next hsame =>
    subst hsame
    exact List.filter_eq_self.mpr fun update hu => by
      simpa using hkey update (by simpa using hu)
  · next hother =>
    apply List.filter_eq_nil_iff.mpr
    intro update hu
    rw [hkey update (by simpa using hu)]
    simpa using hother

/-! ## Every moment is a step -/

section Steps

variable (t : FlowTracker) (merged : MergedFlow) (now : Instant) (generation : ℕ)

theorem observe_step : Moment.Step t.idleTimeout
    ⟨now, some merged, AList.lookup merged.key t.previous,
      (t.observe merged now generation).1.toList,
      AList.lookup merged.key (t.observe merged now generation).2.previous⟩ := by
  unfold FlowTracker.observe
  cases hp : AList.lookup merged.key t.previous with
  | none =>
    rw [FlowTracker.observeNew]
    simp only [AList.lookup_insert]
    exact .fresh rfl rfl
  | some held =>
    simp only [AList.lookup_insert, FlowTracker.observeAgain]
    split
    · next hquiet =>
      simp only [Bool.and_eq_true, Bool.not_eq_true', decide_eq_true_eq] at hquiet
      exact .quiet hquiet.2 hquiet.1 rfl
    · next hactive =>
      simp only [Bool.and_eq_true, Bool.not_eq_true', decide_eq_true_eq, not_and_or,
        Bool.not_eq_false, ne_eq, not_not] at hactive
      exact .observed hactive.symm rfl rfl

theorem idleTimeout_observe :
    (t.observe merged now generation).2.idleTimeout = t.idleTimeout := by
  unfold FlowTracker.observe
  cases AList.lookup merged.key t.previous <;> rfl

/-- What the ageing of a poll emits of one Flow. -/
theorem updatesOf_closed (key : FlowKey) : updatesOf key (t.ageMissing now generation).1 =
    ((AList.lookup key t.previous).bind (t.closingUpdate now generation key)).toList := by
  rw [← HashMap.filterMap_entries, updatesOf, FlowTracker.ageMissing, List.filter_filterMap]
  apply List.filterMap_congr
  intro e _
  by_cases h : e.1 = key
  · rw [h, if_pos rfl]
    unfold FlowTracker.closingUpdate
    split <;> simp
  · rw [if_neg h]
    unfold FlowTracker.closingUpdate
    split <;> simp [h]

theorem age_step (key : FlowKey) : Moment.Step t.idleTimeout
    ⟨now, none, AList.lookup key t.previous, updatesOf key (t.ageMissing now generation).1,
      AList.lookup key (t.ageMissing now generation).2.previous⟩ := by
  rw [updatesOf_closed, (ageMissing_spec now generation t key).2]
  cases hp : AList.lookup key t.previous with
  | none => exact .kept
  | some held =>
    rw [Option.bind_some, Option.filter_some, FlowTracker.closingUpdate]
    cases hk : t.keeps now generation held with
    | true =>
      simp only [Bool.true_or, if_true]
      exact .kept
    | false =>
      by_cases hs : held.state = .active
      · simp only [hs, ne_eq, not_true_eq_false, decide_false, Bool.or_false]
        exact .closed hs rfl
      · simp only [ne_eq, hs, not_false_eq_true, decide_true, Bool.or_true, if_true]
        exact .forgotten hs

theorem idleTimeout_observeAll (ms : List MergedFlow) :
    (FlowTracker.observeAll now generation t ms).2.idleTimeout = t.idleTimeout := by
  induction ms generalizing t with
  | nil => rfl
  | cons m ms ih => exact (ih _).trans (idleTimeout_observe t m now generation)

theorem idleTimeout_handle (event : TrackerEvent) :
    (t.handle event).2.idleTimeout = t.idleTimeout := by
  cases event with
  | poll now merged =>
    exact idleTimeout_observeAll
      { t with
        generation := t.nextGeneration
        clock := { t with merged }.anchored now
        merged := [] } now t.nextGeneration merged
  | service key label =>
    unfold FlowTracker.handle FlowTracker.setService
    simp only
    split
    · rfl
    · split <;> rfl
  | owner key value at' =>
    unfold FlowTracker.handle FlowTracker.recordOwner
    simp only
    split <;> rfl

end Steps

section Every

variable {P : Moment → Prop} {idleTimeout : Duration} {key : FlowKey}

/-- What holds of every observation of a Flow and of every ageing holds of every moment. -/
structure OfEvery (idleTimeout : Duration) (key : FlowKey) (P : Moment → Prop) : Prop where
  observe : ∀ (t : FlowTracker) merged now generation, t.idleTimeout = idleTimeout →
    merged.key = key → P ⟨now, some merged, AList.lookup key t.previous,
      (t.observe merged now generation).1.toList,
      AList.lookup key (t.observe merged now generation).2.previous⟩
  age : ∀ (t : FlowTracker) now generation, t.idleTimeout = idleTimeout →
    P ⟨now, none, AList.lookup key t.previous, updatesOf key (t.ageMissing now generation).1,
      AList.lookup key (t.ageMissing now generation).2.previous⟩

variable (h : OfEvery idleTimeout key P) (t : FlowTracker) (now : Instant)

include h

theorem OfEvery.observeMoments (generation : ℕ) (ms : List MergedFlow)
    (ht : t.idleTimeout = idleTimeout) : ∀ m ∈ observeMoments key now generation t ms, P m := by
  induction ms generalizing t with
  | nil => simp [ZimaScope.observeMoments]
  | cons merged ms ih =>
    have hrest := ih (t.observe merged now generation).2
      ((idleTimeout_observe t merged now generation).trans ht)
    intro m hm
    simp only [ZimaScope.observeMoments] at hm
    split at hm
    · next hkey =>
      rcases List.mem_cons.mp hm with rfl | hm
      · exact h.observe t merged now generation ht hkey
      · exact hrest m hm
    · exact hrest m hm

theorem OfEvery.pollMoments (ht : t.idleTimeout = idleTimeout) :
    ∀ m ∈ pollMoments key t now, P m := by
  intro m hm
  rcases List.mem_append.mp hm with hm | hm
  · exact h.observeMoments
      { t with generation := t.nextGeneration, clock := t.anchored now, merged := [] } now
      t.nextGeneration t.merged ht m hm
  · obtain rfl := List.mem_singleton.mp hm
    exact h.age _ now t.nextGeneration ((idleTimeout_observeAll
      { t with generation := t.nextGeneration, clock := t.anchored now, merged := [] } now
      t.nextGeneration t.merged).trans ht)

theorem OfEvery.moments (events : List TrackerEvent) (ht : t.idleTimeout = idleTimeout) :
    ∀ m ∈ moments key t events, P m := by
  induction events generalizing t with
  | nil => simp [ZimaScope.moments]
  | cons event events ih =>
    have hrest := ih (t.handle event).2 ((idleTimeout_handle t event).trans ht)
    cases event with
    | poll now merged =>
      intro m hm
      rcases List.mem_append.mp hm with hm | hm
      · exact h.pollMoments { t with merged } now ht m hm
      · exact hrest m hm
    | service key' label => exact hrest
    | owner key' value at' => exact hrest

end Every

theorem moments_step (t : FlowTracker) (key : FlowKey) (events : List TrackerEvent) :
    ∀ m ∈ moments key t events, m.Step t.idleTimeout := by
  have hevery : OfEvery t.idleTimeout key (Moment.Step t.idleTimeout) := by
    constructor
    · rintro t' merged now generation ht rfl
      rw [← ht]
      exact observe_step t' merged now generation
    · intro t' now generation ht
      rw [← ht]
      exact age_step t' now generation key
  exact hevery.moments t events rfl

/-! ## Moments make a chain -/

section ChainedBy

variable {α : Type*} (f : PreviousFlow → α)

/-- Every moment starts from the record the one before it left, as far as `f` tells. -/
def ChainedBy : Option α → List Moment → Prop
  | _, [] => True
  | p, m :: ms => m.before.map f = p ∧ ChainedBy (m.after.map f) ms

/-- What the last moment left. -/
def endBy (p : Option α) (ms : List Moment) : Option α := ms.foldl (fun _ m => m.after.map f) p

theorem chainedBy_append {p : Option α} {ms ms' : List Moment} :
    ChainedBy f p (ms ++ ms') ↔ ChainedBy f p ms ∧ ChainedBy f (endBy f p ms) ms' := by
  induction ms generalizing p with
  | nil => simp [ChainedBy, endBy]
  | cons m ms ih =>
    simp only [List.cons_append, ChainedBy, ih, and_assoc]
    rfl

/-- What is held of a Flow. -/
def FlowTracker.heldBy (t : FlowTracker) (key : FlowKey) : Option α :=
  (AList.lookup key t.previous).map f

end ChainedBy

section Chains

variable {α : Type*} (f : PreviousFlow → α) (t : FlowTracker) (now : Instant) (generation : ℕ)
  (key : FlowKey)

theorem chainedBy_observeMoments (ms : List MergedFlow) :
    ChainedBy f (t.heldBy f key) (observeMoments key now generation t ms) ∧
      endBy f (t.heldBy f key) (observeMoments key now generation t ms) =
        (FlowTracker.observeAll now generation t ms).2.heldBy f key ∧
      (observeMoments key now generation t ms).flatMap Moment.updates =
        updatesOf key (FlowTracker.observeAll now generation t ms).1 := by
  induction ms generalizing t with
  | nil => exact ⟨trivial, rfl, rfl⟩
  | cons merged ms ih =>
    obtain ⟨hchain, hend, hupdates⟩ := ih (t.observe merged now generation).2
    simp only [observeMoments, FlowTracker.observeAll]
    split
    · next hm =>
      subst hm
      refine ⟨⟨rfl, hchain⟩, hend, ?_⟩
      rw [List.flatMap_cons, hupdates, updatesOf_append, updatesOf_observe, if_pos rfl]
    · next hm =>
      have hsame : (t.observe merged now generation).2.heldBy f key = t.heldBy f key := by
        rw [FlowTracker.heldBy, lookup_observe_of_ne t merged now generation (Ne.symm hm),
          FlowTracker.heldBy]
      rw [hsame] at hchain hend
      refine ⟨hchain, hend, ?_⟩
      rw [hupdates, updatesOf_append, updatesOf_observe, if_neg hm, List.nil_append]

theorem chainedBy_pollMoments :
    ChainedBy f (t.heldBy f key) (pollMoments key t now) ∧
      endBy f (t.heldBy f key) (pollMoments key t now) = (t.reconcile now).2.heldBy f key ∧
      (pollMoments key t now).flatMap Moment.updates = updatesOf key (t.reconcile now).1 := by
  obtain ⟨hchain, hend, hupdates⟩ := chainedBy_observeMoments f
    { t with generation := t.nextGeneration, clock := t.anchored now, merged := [] } now
    t.nextGeneration key t.merged
  refine ⟨(chainedBy_append f).mpr ⟨hchain, ?_⟩, ?_, ?_⟩
  · exact ⟨hend.symm, trivial⟩
  · rw [endBy, pollMoments, List.foldl_append]
    rfl
  · rw [pollMoments, List.flatMap_append, hupdates]
    simp only [List.flatMap_cons, List.flatMap_nil, List.append_nil, ← updatesOf_append]
    rfl

/-- A label changes nothing of a record that `f` tells. -/
theorem heldBy_setService (hf : ∀ previous service, f { previous with service } = f previous)
    (key' : FlowKey) (label : String) :
    (t.setService key' label).heldBy f key = t.heldBy f key := by
  unfold FlowTracker.setService FlowTracker.heldBy
  cases hp : AList.lookup key' t.previous with
  | none =>
    simp only
    split <;> rfl
  | some previous =>
    by_cases hk : key = key'
    · subst hk
      rw [AList.lookup_insert, hp, Option.map_some, hf]
      rfl
    · rw [AList.lookup_insert_ne hk]

theorem heldBy_recordOwner (owner : OwnerKey) (value : OwnerValue) (at' : Instant) :
    (t.recordOwner owner value at').heldBy f key = t.heldBy f key := by
  unfold FlowTracker.recordOwner
  split <;> rfl

/-- The moments of a run are a chain, and emit the updates of the Flow. -/
theorem chainedBy_moments (hf : ∀ previous service, f { previous with service } = f previous)
    (events : List TrackerEvent) :
    ChainedBy f (t.heldBy f key) (moments key t events) ∧
      (moments key t events).flatMap Moment.updates = updatesOf key (t.run events).1 := by
  induction events generalizing t with
  | nil => exact ⟨trivial, rfl⟩
  | cons event events ih =>
    obtain ⟨hchain, hupdates⟩ := ih (t.handle event).2
    cases event with
    | poll now merged =>
      obtain ⟨hpoll, hend, hemitted⟩ := chainedBy_pollMoments f { t with merged } now key
      constructor
      · refine (chainedBy_append f).mpr ⟨hpoll, ?_⟩
        change ChainedBy f (endBy f (FlowTracker.heldBy f { t with merged } key) _) _
        rw [hend]
        exact hchain
      · rw [moments, List.flatMap_append, hupdates, hemitted, ← updatesOf_append]
        rfl
    | service key' label =>
      change ChainedBy f ((t.setService key' label).heldBy f key) _ at hchain
      rw [heldBy_setService f t key hf] at hchain
      exact ⟨hchain, hupdates⟩
    | owner key' value at' =>
      change ChainedBy f ((t.recordOwner key' value at').heldBy f key) _ at hchain
      rw [heldBy_recordOwner] at hchain
      exact ⟨hchain, hupdates⟩

end Chains

/-! ## The chain of states -/

/-- Every moment starts in the state the one before it ended in. -/
def Chained : Option FlowState → List Moment → Prop
  | _, [] => True
  | p, m :: ms => m.stateBefore = p ∧ Chained m.stateAfter ms

/-- The state after the last moment. -/
def endState (p : Option FlowState) (ms : List Moment) : Option FlowState :=
  ms.foldl (fun _ m => m.stateAfter) p

/-- The tracked state of a Flow. -/
def FlowTracker.stateOf (t : FlowTracker) (key : FlowKey) : Option FlowState :=
  (AList.lookup key t.previous).map PreviousFlow.state

theorem chained_iff {p : Option FlowState} {ms : List Moment} :
    Chained p ms ↔ ChainedBy PreviousFlow.state p ms := by
  induction ms generalizing p with
  | nil => rfl
  | cons m ms ih => exact and_congr Iff.rfl ih

theorem chained_append {p : Option FlowState} {ms ms' : List Moment} :
    Chained p (ms ++ ms') ↔ Chained p ms ∧ Chained (endState p ms) ms' := by
  simp only [chained_iff]
  exact chainedBy_append PreviousFlow.state

theorem chained_moments (t : FlowTracker) (key : FlowKey) (events : List TrackerEvent) :
    Chained (t.stateOf key) (moments key t events) ∧
      (moments key t events).flatMap Moment.updates = updatesOf key (t.run events).1 := by
  rw [chained_iff]
  exact chainedBy_moments PreviousFlow.state t key (fun _ _ => rfl) events

end ZimaScope
