import ZimaScope.Collector.Lifecycle

/-! # The stream of updates

What the updates of one Flow look like over a whole run of a tracker: no active
entry is dropped in silence, and an ended one says nothing more until the kernel
entry shows new activity.
-/

namespace ZimaScope

/-- The state of the last update. -/
def lastEmitted (ms : List Moment) : Option FlowState :=
  (ms.flatMap Moment.updates).getLast?.map FlowUpdate.state

/-- The update stream of one Flow is well formed. -/
structure WellFormed (idleTimeout : Duration) (ms : List Moment) : Prop where
  /-- An entry whose last update says active is not forgotten without an ending. -/
  forgotten_closed : ∀ past m future, ms = past ++ m :: future →
    lastEmitted past = some .active → m.after = none → m.EmitsEnded
  /-- Between two endings of one tracked entry there is new activity. -/
  activity_between : ∀ past m between m' future, ms = past ++ m :: between ++ m' :: future →
    m.EmitsEnded → (∀ x ∈ m :: between, x.after ≠ none) → m'.EmitsEnded →
      ∃ x ∈ between ++ [m'], x.Activity
  /-- An ended entry without new activity is silent. -/
  ended_silent : ∀ m ∈ ms, ∀ held reason, m.before = some held → held.state = .ended reason →
    ¬ m.Activity → m.updates = []
  /-- An active entry that is present without activity ends when the timeout is over. -/
  idle_ended : ∀ m ∈ ms, ∀ merged held, m.seen = some merged → m.before = some held →
    held.state = .active → held.activeIn merged = false → held.lastSeen + idleTimeout ≤ m.now →
      ∃ update, m.updates = [update] ∧ update.state =
        if gainedFlag tcpRst merged held then .ended .tcpReset
        else if gainedFlag tcpFin merged held then .ended .tcpFin else .ended .idleTimeout
  /-- It does not end of idleness before. -/
  not_idle_before : ∀ m ∈ ms, ∀ merged held, m.seen = some merged → m.before = some held →
    0 < idleTimeout → m.now < held.lastSeen + idleTimeout →
      ∀ update ∈ m.updates, update.state ≠ .ended .idleTimeout

/-! ## One moment -/

/-- The tracked state is the one of the last update, and none is tracked only
after an ending. -/
def Tracks (emitted tracked : Option FlowState) : Prop :=
  match tracked with
  | some s => emitted = some s
  | none => emitted ≠ some .active

section Moment

variable {idleTimeout : Duration} {m : Moment}

theorem lastEmitted_append (ms : List Moment) (m : Moment) : lastEmitted (ms ++ [m]) =
    (m.updates.getLast?.map FlowUpdate.state).or (lastEmitted ms) := by
  rw [lastEmitted, lastEmitted, List.flatMap_append, List.getLast?_append]
  simp only [List.flatMap_cons, List.flatMap_nil, List.append_nil]
  cases m.updates.getLast? <;> rfl

theorem Moment.Step.tracks (hs : m.Step idleTimeout) {emitted : Option FlowState}
    (h : Tracks emitted m.stateBefore) :
    Tracks ((m.updates.getLast?.map FlowUpdate.state).or emitted) m.stateAfter := by
  cases hs with
  | fresh hu hp => simp [Tracks, Moment.stateAfter, hu, hp]
  | quiet hs ha hp =>
    change emitted = some _ at h
    simp [Tracks, Moment.stateAfter, hp, h]
  | observed ha hu hp => simp [Tracks, Moment.stateAfter, hu, hp]
  | kept => exact h
  | forgotten hs =>
    change emitted = some _ at h
    simpa [Tracks, Moment.stateAfter, h] using hs
  | closed hs hu => simp [Tracks, Moment.stateAfter, hu]

/-- An entry whose state is active is not forgotten without an ending. -/
theorem Moment.Step.emitsEnded (hs : m.Step idleTimeout) (hb : m.stateBefore = some .active)
    (ha : m.after = none) : m.EmitsEnded := by
  cases hs with
  | fresh | quiet | observed => simp at ha
  | kept =>
    obtain rfl : _ = none := ha
    simp [Moment.stateBefore] at hb
  | forgotten hs => exact absurd (Option.some.inj hb) hs
  | closed hs hu => exact ⟨_, List.mem_singleton_self _, _, hu⟩

/-- An ended entry without new activity is silent, and stays ended while it is tracked. -/
theorem Moment.Step.silent (hs : m.Step idleTimeout) {s : FlowState}
    (hb : m.stateBefore = some s) (hne : s ≠ .active) (ha : ¬ m.Activity) :
    m.updates = [] ∧ (m.after ≠ none → m.stateAfter = some s) := by
  cases hs with
  | fresh => simp [Moment.stateBefore] at hb
  | quiet hs hq hp => exact ⟨rfl, fun _ => by rw [← hb, Moment.stateAfter, Option.map_some, hp]; rfl⟩
  | observed h hu hp =>
    rcases h with h | h
    · exact absurd ((Option.some.inj hb).symm.trans h) hne
    · exact absurd ⟨_, _, rfl, rfl, h⟩ ha
  | kept => exact ⟨rfl, fun _ => hb⟩
  | forgotten => exact ⟨rfl, fun h => absurd rfl h⟩
  | closed hs hu => exact absurd ((Option.some.inj hb).symm.trans hs) hne

/-- The state after an ending of an entry that stays tracked is not active. -/
theorem Moment.Step.stateAfter_of_emitsEnded (hs : m.Step idleTimeout) (he : m.EmitsEnded)
    (ha : m.after ≠ none) : ∃ s, m.stateAfter = some s ∧ s ≠ .active := by
  obtain ⟨update, hu, reason, hr⟩ := he
  cases hs with
  | fresh hu' hp =>
    obtain rfl := List.mem_singleton.mp hu
    rw [hu'] at hr
    cases hr
  | quiet | kept | forgotten => simp at hu
  | observed h hu' hp =>
    obtain rfl := List.mem_singleton.mp hu
    refine ⟨_, rfl, ?_⟩
    rw [hp, ← hu', hr]
    simp
  | closed => exact absurd rfl ha

/-- An observation of an active entry without activity. -/
theorem Moment.Step.idle (hs : m.Step idleTimeout) {merged : MergedFlow} {held : PreviousFlow}
    (hm : m.seen = some merged) (hb : m.before = some held) (hact : held.state = .active) :
    ∃ update, m.updates = [update] ∧ update.state = held.stateAfter idleTimeout merged m.now := by
  cases hs with
  | fresh => simp at hb
  | quiet hs =>
    obtain rfl := Option.some.inj hb
    exact absurd hact hs
  | observed h hu hp =>
    obtain rfl := Option.some.inj hb
    obtain rfl := Option.some.inj hm
    exact ⟨_, rfl, hu⟩
  | kept | forgotten | closed => simp at hm

theorem stateAfter_idle {held : PreviousFlow} {merged : MergedFlow} {now : Instant}
    (hq : held.activeIn merged = false) (hnow : held.lastSeen + idleTimeout ≤ now) :
    held.stateAfter idleTimeout merged now =
      if gainedFlag tcpRst merged held then .ended .tcpReset
      else if gainedFlag tcpFin merged held then .ended .tcpFin else .ended .idleTimeout := by
  have hidle : idleTimeout ≤ Instant.saturatingDurationSince now held.lastSeen :=
    Instant.le_saturatingDurationSince hnow
  simp only [PreviousFlow.stateAfter, hq, hidle, Bool.not_false, decide_true, Bool.and_self, if_true]

theorem stateAfter_ne_idle {held : PreviousFlow} {merged : MergedFlow} {now : Instant}
    (hpos : 0 < idleTimeout) (hnow : now < held.lastSeen + idleTimeout) :
    held.stateAfter idleTimeout merged now ≠ .ended .idleTimeout := by
  have hidle : ¬ idleTimeout ≤ Instant.saturatingDurationSince now held.lastSeen :=
    (Instant.saturatingDurationSince_lt hpos hnow).not_ge
  simp only [PreviousFlow.stateAfter, hidle, decide_false, Bool.and_false]
  split
  · simp
  · split <;> simp

end Moment

/-! ## Runs -/

section Run

variable {idleTimeout : Duration} {p : Option FlowState} {ms : List Moment}

theorem tracks_endState (hs : ∀ m ∈ ms, m.Step idleTimeout) (hc : Chained p ms)
    (h : Tracks none p) : Tracks (lastEmitted ms) (endState p ms) := by
  induction ms using List.reverseRecOn with
  | nil => exact h
  | append_singleton ms m ih =>
    obtain ⟨hms, hm, _⟩ := chained_append.mp hc
    have hbefore := ih (fun m hm => hs m (List.mem_append_left _ hm)) hms
    rw [← hm] at hbefore
    rw [lastEmitted_append, endState, List.foldl_append]
    exact (hs m (by simp)).tracks hbefore

/-- An ended entry stays ended as long as it is tracked and shows no activity. -/
theorem endState_of_silent (hs : ∀ m ∈ ms, m.Step idleTimeout) (hc : Chained p ms) {s : FlowState}
    (hp : p = some s) (hne : s ≠ .active) (hkept : ∀ m ∈ ms, m.after ≠ none)
    (ha : ∀ m ∈ ms, ¬ m.Activity) : endState p ms = some s := by
  induction ms generalizing p with
  | nil => exact hp
  | cons m ms ih =>
    obtain ⟨hb, hc⟩ := hc
    have hafter := ((hs m List.mem_cons_self).silent (hb.trans hp) hne
      (ha m List.mem_cons_self)).2 (hkept m List.mem_cons_self)
    exact ih (fun m hm => hs m (List.mem_cons_of_mem _ hm)) hc hafter
      (fun m hm => hkept m (List.mem_cons_of_mem _ hm)) fun m hm => ha m (List.mem_cons_of_mem _ hm)

theorem wellFormed_of_chained (hs : ∀ m ∈ ms, m.Step idleTimeout) (hc : Chained p ms)
    (hp : Tracks none p) : WellFormed idleTimeout ms where
  forgotten_closed past m future he hl hn := by
    subst he
    obtain ⟨hpast, hm, _⟩ := chained_append.mp hc
    have ht := tracks_endState (fun m hm => hs m (List.mem_append_left _ hm)) hpast hp
    rw [hl, ← hm] at ht
    refine (hs m (by simp)).emitsEnded ?_ hn
    cases hb : m.stateBefore with
    | none =>
      rw [hb] at ht
      exact absurd rfl ht
    | some s =>
      rw [hb] at ht
      exact ht.symm
  activity_between past m between m' future he hm hkept hm' := by
    subst he
    by_contra hn
    have hquiet : ∀ x ∈ between ++ [m'], ¬ x.Activity := fun x hx ha => hn ⟨x, hx, ha⟩
    have hcut : past ++ m :: between ++ m' :: future =
        past ++ ([m] ++ (between ++ ([m'] ++ future))) := by simp
    rw [hcut] at hs hc
    obtain ⟨hbm, hc⟩ := chained_append.mp (chained_append.mp hc).2
    obtain ⟨hcb, hb', _⟩ := chained_append.mp hc
    obtain ⟨s, hafter, hne⟩ := (hs m (by simp)).stateAfter_of_emitsEnded hm
      (hkept m List.mem_cons_self)
    have hend := endState_of_silent (fun x hx => hs x (by simp [hx])) hcb hafter hne
      (fun x hx => hkept x (List.mem_cons_of_mem _ hx))
      fun x hx => hquiet x (List.mem_append_left _ hx)
    have hsilent := ((hs m' (by simp)).silent (hb'.trans hend) hne (hquiet m' (by simp))).1
    obtain ⟨update, hu, _⟩ := hm'
    rw [hsilent] at hu
    simp at hu
  ended_silent m hm held reason hb hr ha := by
    refine ((hs m hm).silent (s := .ended reason) ?_ (by simp) ha).1
    rw [Moment.stateBefore, hb, ← hr]
    rfl
  idle_ended m hm merged held hseen hb hact hq hnow := by
    obtain ⟨update, hu, hstate⟩ := (hs m hm).idle hseen hb hact
    exact ⟨update, hu, hstate.trans (stateAfter_idle hq hnow)⟩
  not_idle_before m hm merged held hseen hb hpos hnow update hu hidle := by
    have hstep := hs m hm
    cases hstep with
    | fresh => simp at hb
    | quiet => simp at hu
    | observed h hu' hp =>
      obtain rfl := Option.some.inj hb
      obtain rfl := List.mem_singleton.mp hu
      exact stateAfter_ne_idle hpos hnow (hu'.symm.trans hidle)
    | kept | forgotten | closed => simp at hseen

end Run

/-- The update stream of every Flow is well formed, over any run of polls: it is
the stream of the moments, which are a well-formed chain. -/
theorem updateStream_wellFormed (idleTimeout : Duration) (key : FlowKey)
    (events : List TrackerEvent) :
    (moments key (.new idleTimeout) events).flatMap Moment.updates =
        updatesOf key ((FlowTracker.new idleTimeout).run events).1 ∧
      WellFormed idleTimeout (moments key (.new idleTimeout) events) := by
  obtain ⟨hchain, hupdates⟩ := chained_moments (.new idleTimeout) key events
  have hnew : (FlowTracker.new idleTimeout).stateOf key = none := rfl
  rw [hnew] at hchain
  refine ⟨hupdates, wellFormed_of_chained (moments_step (.new idleTimeout) key events) hchain ?_⟩
  simp [Tracks]

end ZimaScope
