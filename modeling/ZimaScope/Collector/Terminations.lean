import ZimaScope.Collector.Lifecycle
import ZimaScope.Collector.Retention

/-! # TCP termination

The flags of a snapshot tell that a connection was closed or reset. A Flow is
ended by a flag that was not there before, so it matters which snapshot shows it
first and what is held of the Flow by then.
-/

namespace ZimaScope

/-- The end of the connection that the flags of a snapshot tell. -/
def MergedFlow.tcpEnd (merged : MergedFlow) : Option EndReason :=
  if merged.tcpFlags &&& tcpRst ≠ 0 then some .tcpReset
  else if merged.tcpFlags &&& tcpFin ≠ 0 then some .tcpFin
  else none

/-- The flag that tells it. -/
def MergedFlow.endingFlag (merged : MergedFlow) : UInt16 :=
  if merged.tcpFlags &&& tcpRst ≠ 0 then tcpRst else tcpFin

/-! ## Incarnations -/

/-- The snapshot is the first of the Flow, or the first after its counters went back. -/
def Moment.starts (m : Moment) (merged : MergedFlow) : Bool :=
  m.before.all fun held => held.recreatedBy merged

/-- The snapshots of an incarnation once a moment has passed. -/
def Moment.extend (m : Moment) (known : List MergedFlow) : List MergedFlow :=
  match m.seen with
  | none => known
  | some merged => if m.starts merged then [merged] else known ++ [merged]

/-- The snapshots of the latest incarnation of a Flow. -/
def incarnation (past : List Moment) : List MergedFlow :=
  past.foldl (fun known m => m.extend known) []

/-- The first snapshot of an incarnation that tells the end of the connection. -/
structure FirstTermination (past : List Moment) (m : Moment) (merged : MergedFlow)
    (reason : EndReason) : Prop where
  seen : m.seen = some merged
  tells : merged.tcpEnd = some reason
  first : m.starts merged = false → ∀ snapshot ∈ incarnation past, snapshot.tcpEnd = none

/-- The Flow is held, and what is held does not hide the flag: an older
incarnation does not have it, and an ended Flow has seen packets since. -/
def Noticed (m : Moment) (merged : MergedFlow) : Prop :=
  ∃ held, m.before = some held ∧
    if held.recreatedBy merged then held.tcpFlags &&& merged.endingFlag = 0
    else held.state = .active ∨ held.lastSeenNs < merged.lastSeenNs

/-! ## The flags that are held -/

/-- The flags a moment leaves are those of its snapshot, or were held of the same incarnation. -/
def Moment.Noted (m : Moment) : Prop :=
  ∀ flags ∈ m.after.map PreviousFlow.tcpFlags,
    (∃ merged, m.seen = some merged ∧ merged.tcpFlags = flags) ∨
      (m.before.map PreviousFlow.tcpFlags = some flags ∧
        ∀ merged, m.seen = some merged → m.starts merged = false)

section Noted

variable (t : FlowTracker) (merged : MergedFlow) (now : Instant) (generation : ℕ)

theorem observe_noted : Moment.Noted
    ⟨now, some merged, AList.lookup merged.key t.previous,
      (t.observe merged now generation).1.toList,
      AList.lookup merged.key (t.observe merged now generation).2.previous⟩ := by
  intro flags hflags
  unfold FlowTracker.observe at hflags
  cases hp : AList.lookup merged.key t.previous with
  | none =>
    simp only [hp, FlowTracker.observeNew, AList.lookup_insert] at hflags
    exact Or.inl ⟨merged, rfl, by simpa using hflags⟩
  | some held =>
    simp only [hp, AList.lookup_insert, FlowTracker.observeAgain] at hflags
    split at hflags
    · next hquiet =>
      simp only [Bool.and_eq_true, Bool.not_eq_true', Bool.or_eq_false_iff] at hquiet
      refine Or.inr ⟨by simpa using hflags, ?_⟩
      rintro _ ⟨⟩
      exact hquiet.1.1
    · exact Or.inl ⟨merged, rfl, by simpa using hflags⟩

theorem age_noted (key : FlowKey) : Moment.Noted
    ⟨now, none, AList.lookup key t.previous, updatesOf key (t.ageMissing now generation).1,
      AList.lookup key (t.ageMissing now generation).2.previous⟩ := by
  intro flags hflags
  simp only [(ageMissing_spec now generation t key).2] at hflags
  refine Or.inr ⟨?_, fun _ hseen => nomatch hseen⟩
  cases hp : AList.lookup key t.previous with
  | none => simp [hp] at hflags
  | some held =>
    rw [hp, Option.filter_some] at hflags
    split at hflags
    · simpa using hflags
    · simp at hflags

theorem moments_noted (key : FlowKey) (events : List TrackerEvent) :
    ∀ m ∈ moments key t events, m.Noted := by
  have hevery : OfEvery t.idleTimeout key Moment.Noted := by
    constructor
    · rintro t' merged now generation - rfl
      exact observe_noted t' merged now generation
    · rintro t' now generation -
      exact age_noted t' now generation key
  exact hevery.moments t events rfl

end Noted

theorem incarnation_append (past : List Moment) (m : Moment) :
    incarnation (past ++ [m]) = m.extend (incarnation past) := by
  unfold incarnation
  rw [List.foldl_append]
  rfl

/-- The flags held of a Flow are those of a snapshot of its incarnation. -/
theorem exists_snapshot_of_held {past : List Moment} (hnoted : ∀ m ∈ past, m.Noted)
    (hchain : ChainedBy PreviousFlow.tcpFlags none past) {flags : UInt16}
    (hflags : endBy PreviousFlow.tcpFlags none past = some flags) :
    ∃ snapshot ∈ incarnation past, snapshot.tcpFlags = flags := by
  induction past using List.reverseRecOn generalizing flags with
  | nil => cases hflags
  | append_singleton past m ih =>
    obtain ⟨hpast, hbefore, -⟩ := (chainedBy_append _).mp hchain
    have hafter : m.after.map PreviousFlow.tcpFlags = some flags := by
      rw [← hflags]
      unfold endBy
      rw [List.foldl_append]
      rfl
    rw [incarnation_append]
    unfold Moment.extend
    rcases hnoted m (by simp) flags hafter with ⟨merged, hseen, rfl⟩ | ⟨hheld, hsame⟩
    · rw [hseen]
      refine ⟨merged, ?_, rfl⟩
      simp only
      split <;> simp
    · rw [hbefore] at hheld
      obtain ⟨snapshot, hmem, rfl⟩ := ih (fun m hm => hnoted m (by simp [hm])) hpast hheld
      refine ⟨snapshot, ?_, rfl⟩
      cases hseen : m.seen with
      | none => exact hmem
      | some merged => simp [hsame merged hseen, hmem]

/-! ## The end of a Flow -/

section StateAfter

variable {idleTimeout : Duration} {now : Instant} {held : PreviousFlow} {merged : MergedFlow}

theorem stateAfter_eq_tcpReset_iff :
    held.stateAfter idleTimeout merged now = .ended .tcpReset ↔
      gainedFlag tcpRst merged held = true := by
  unfold PreviousFlow.stateAfter
  split
  · next hrst => simp [hrst]
  · next hrst =>
    simp only [hrst]
    split
    · simp
    · split <;> simp

theorem stateAfter_eq_tcpFin_iff :
    held.stateAfter idleTimeout merged now = .ended .tcpFin ↔
      gainedFlag tcpRst merged held = false ∧ gainedFlag tcpFin merged held = true := by
  unfold PreviousFlow.stateAfter
  split
  · next hrst => simp [hrst]
  · next hrst =>
    split
    · next hfin => simp [hrst, hfin]
    · next hfin =>
      simp only [hfin]
      split <;> simp

/-- An observation tells the end exactly when the flag of it was not held. -/
theorem stateAfter_eq_ended_iff {reason : EndReason} (h : merged.tcpEnd = some reason) :
    held.stateAfter idleTimeout merged now = .ended reason ↔
      held.tcpFlags &&& merged.endingFlag = 0 := by
  unfold MergedFlow.tcpEnd at h
  unfold MergedFlow.endingFlag
  by_cases hrst : merged.tcpFlags &&& tcpRst = 0
  · by_cases hfin : merged.tcpFlags &&& tcpFin = 0
    · simp [hrst, hfin] at h
    · obtain rfl : EndReason.tcpFin = reason := by simpa [hrst, hfin] using h
      rw [stateAfter_eq_tcpFin_iff]
      simp [gainedFlag, hrst, hfin]
  · obtain rfl : EndReason.tcpReset = reason := by simpa [hrst] using h
    rw [stateAfter_eq_tcpReset_iff]
    simp [gainedFlag, hrst]

end StateAfter

theorem endingFlag_clear {merged snapshot : MergedFlow} (h : snapshot.tcpEnd = none) :
    snapshot.tcpFlags &&& merged.endingFlag = 0 := by
  unfold MergedFlow.tcpEnd at h
  unfold MergedFlow.endingFlag
  split at h
  · cases h
  · next hrst =>
    split at h
    · cases h
    · next hfin =>
      split
      · exact not_not.mp hrst
      · exact not_not.mp hfin

/-- The poll that first shows a connection closed or reset ends its Flow exactly when it is noticed. -/
theorem termination_iff (idleTimeout : Duration) (key : FlowKey) (events : List TrackerEvent)
    {past future : List Moment} {m : Moment} {merged : MergedFlow} {reason : EndReason}
    (hrun : moments key (.new idleTimeout) events = past ++ m :: future)
    (hfirst : FirstTermination past m merged reason) :
    (∃ update ∈ m.updates, update.state = .ended reason) ↔ Noticed m merged := by
  obtain ⟨hseen, htells, hclean⟩ := hfirst
  have hm : m ∈ moments key (.new idleTimeout) events := by simp [hrun]
  have hchain := (chainedBy_moments PreviousFlow.tcpFlags (.new idleTimeout) key
    (fun _ _ => rfl) events).1
  rw [hrun] at hchain
  obtain ⟨hpast, hbefore, -⟩ := (chainedBy_append _).mp hchain
  have hnoted : ∀ x ∈ past, x.Noted := fun x hx =>
    moments_noted (.new idleTimeout) key events x (by simp [hrun, hx])
  have hstep := moments_step (.new idleTimeout) key events m hm
  unfold Noticed
  cases hstep with
  | fresh hu hp => simp [hu]
  | quiet hs ha hp =>
    obtain rfl := (Option.some.inj hseen).symm
    unfold PreviousFlow.activeIn at ha
    rw [Bool.or_eq_false_iff, decide_eq_false_iff_not] at ha
    simp [ha.1, ha.2, hs]
  | @observed now _ held update previous ha hu hp =>
    obtain rfl := (Option.some.inj hseen).symm
    simp only [List.mem_singleton, exists_eq_left, hu, stateAfter_eq_ended_iff htells,
      Option.some.injEq, exists_eq_left']
    cases hr : held.recreatedBy merged with
    | true => simp
    | false =>
      -- the flags held are those of a snapshot that told no end
      obtain ⟨snapshot, hmem, hflags⟩ := exists_snapshot_of_held hnoted hpast hbefore.symm
      have hsame := hclean (by simp [Moment.starts, hr]) snapshot hmem
      have hlater : held.state = .active ∨ held.lastSeenNs < merged.lastSeenNs := by
        unfold PreviousFlow.activeIn at ha
        simpa [hr] using ha
      simp [← hflags, endingFlag_clear hsame, hlater]
  | kept => cases hseen
  | forgotten => cases hseen
  | closed => cases hseen

section Example

def finSighting : MergedFlow := { sshSighting 6 600 400 with tcpFlags := tcpFin }

/-- A connection is seen twice, and closed in between. -/
def closedLater : List Moment :=
  moments sshFlow (.new (fromSecs 30)) [.poll 0 [sshSighting 5 500 200], .poll 10 [finSighting]]

theorem closedLater_ends : ∃ update ∈ (closedLater.get ⟨2, by decide +kernel⟩).updates,
    update.state = .ended .tcpFin := by
  have hfirst : FirstTermination (closedLater.take 2) (closedLater.get ⟨2, by decide +kernel⟩)
      finSighting .tcpFin := ⟨rfl, by decide, fun _ => by decide +kernel⟩
  exact (termination_iff (fromSecs 30) sshFlow
    [.poll 0 [sshSighting 5 500 200], .poll 10 [finSighting]] rfl hfirst).mpr
    ⟨_, rfl, .inl rfl⟩

/-- A connection that is closed by the time it is first seen stays active. -/
theorem closed_before_seen_stays_active : ¬ ∀ (idleTimeout : Duration) (key : FlowKey)
    (events : List TrackerEvent) (past future : List Moment) (m : Moment) (merged : MergedFlow)
    (reason : EndReason), moments key (.new idleTimeout) events = past ++ m :: future →
      FirstTermination past m merged reason →
        ∃ update ∈ m.updates, update.state = .ended reason := by
  intro h
  obtain ⟨update, hu, hstate⟩ := h (fromSecs 30) sshFlow [.poll 0 [finSighting]] [] _ _
    finSighting .tcpFin rfl ⟨rfl, by decide, fun _ => by decide⟩
  obtain rfl := List.mem_singleton.mp hu
  cases hstate

end Example

end ZimaScope
