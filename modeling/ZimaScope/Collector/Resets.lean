import ZimaScope.Collector.Lifecycle
import ZimaScope.Collector.Retention

/-! # Counter resets

An entry whose counters went back is a new one, and its Flow should be tracked
as if it were. What the record of the old entry leaves behind is its labels and,
when the new entry comes with a flag the old one did not have, an end.
-/

namespace ZimaScope

namespace FlowTracker

variable (t : FlowTracker)

/-- The tracker without an entry of the Flow. -/
def forget (key : FlowKey) : FlowTracker := { t with previous := t.previous.erase key }

/-- The rest of a poll after one of its entries, and what happens after it. -/
def resume (now : Instant) (generation : ℕ) (rest : List MergedFlow) (events : List TrackerEvent) :
    List FlowUpdate :=
  let (updates, t) := observeAll now generation t rest
  let (closed, t) := t.ageMissing now generation
  updates ++ closed ++ ((t.purgeOwners now).run events).1

end FlowTracker

/-- Why a Flow ended, each time that it did. -/
def endings (key : FlowKey) (updates : List FlowUpdate) : List EndReason :=
  (updatesOf key updates).filterMap fun update => update.state.endReason

section Statement

variable (t : FlowTracker) (merged : MergedFlow) (now : Instant) (generation : ℕ)

/-- What is emitted for an entry, and every later end of its Flow, is as if the Flow were new. -/
structure StartsAnew : Prop where
  update : ∃ update fresh, (t.observe merged now generation).1 = some update ∧
    ((t.forget merged.key).observe merged now generation).1 = some fresh ∧
    update.delta = fresh.delta ∧ update.firstSeen = fresh.firstSeen ∧
    update.service = fresh.service ∧ update.application = fresh.application
  endings : ∀ rest events,
    endings merged.key ((t.observe merged now generation).2.resume now generation rest events) =
      endings merged.key
        (((t.forget merged.key).observe merged now generation).2.resume now generation rest events)

/-- The record of the old entry has nothing to leave to the new one. -/
structure LeavesNothing (previous : PreviousFlow) : Prop where
  service : previous.service = AList.lookup merged.key t.pendingServices
  application : previous.application = none ∨
    previous.application = t.resolveApplication merged.key
  reset : gainedFlag tcpRst merged previous = false
  fin : gainedFlag tcpFin merged previous = false

end Statement

/-! ## A further observation -/

section Again

variable (t : FlowTracker) (merged : MergedFlow) (now : Instant) (generation : ℕ)
  {previous : PreviousFlow}

theorem observeAgain_of_quiet (hs : previous.state ≠ .active)
    (ha : previous.activeIn merged = false) :
    t.observeAgain merged now generation previous = (none,
      { previous with
        application := previous.application.or (t.resolveApplication merged.key)
        generation }) := by
  have hquiet : (!previous.activeIn merged && decide (previous.state ≠ .active)) = true := by
    simp [ha, hs]
  exact if_pos hquiet

theorem observeAgain_of_seen (h : previous.state = .active ∨ previous.activeIn merged = true) :
    t.observeAgain merged now generation previous = (some {
        key := merged.key
        delta := if previous.recreatedBy merged then merged.total else
          ⟨merged.total.packets - previous.total.packets, merged.total.bytes - previous.total.bytes⟩
        total := merged.total
        firstSeen := if previous.recreatedBy merged then t.clock.toInstant now merged.firstSeenNs
          else previous.firstSeen
        lastSeen := t.clock.toInstant now merged.lastSeenNs
        state := previous.stateAfter t.idleTimeout merged now
        service := previous.service
        application := previous.application.or (t.resolveApplication merged.key) },
      { previous with
        application := previous.application.or (t.resolveApplication merged.key)
        generation
        total := merged.total
        firstSeen := if previous.recreatedBy merged then t.clock.toInstant now merged.firstSeenNs
          else previous.firstSeen
        lastSeen := t.clock.toInstant now merged.lastSeenNs
        lastSeenNs := merged.lastSeenNs
        tcpFlags := merged.tcpFlags
        state := previous.stateAfter t.idleTimeout merged now }) := by
  have hseen : ¬ (!previous.activeIn merged && decide (previous.state ≠ .active)) = true := by
    rcases h with h | h
    · simp [h]
    · simp [h]
  exact if_neg hseen

end Again

/-! ## Labels aside -/

def PreviousFlow.unlabelled (previous : PreviousFlow) : PreviousFlow :=
  { previous with service := none }

def FlowUpdate.unlabelled (update : FlowUpdate) : FlowUpdate := { update with service := none }

/-- The tracker without service labels, held or pending. -/
def FlowTracker.unlabelled (t : FlowTracker) : FlowTracker :=
  { t with
    previous := t.previous.mapValues PreviousFlow.unlabelled
    pendingServices := ∅ }

section Unlabelled

variable (t : FlowTracker) (merged : MergedFlow) (now : Instant) (generation : ℕ)

/-- Labels decide nothing about a further observation. -/
theorem observeAgain_unlabelled (previous : PreviousFlow) :
    t.unlabelled.observeAgain merged now generation previous.unlabelled =
      ((t.observeAgain merged now generation previous).1.map FlowUpdate.unlabelled,
        (t.observeAgain merged now generation previous).2.unlabelled) := by
  by_cases hquiet : previous.state = .active ∨ previous.activeIn merged = true
  · rw [observeAgain_of_seen t merged now generation hquiet,
      observeAgain_of_seen t.unlabelled merged now generation (by exact hquiet)]
    rfl
  · obtain ⟨hs, ha⟩ := not_or.mp hquiet
    rw [Bool.not_eq_true] at ha
    rw [observeAgain_of_quiet t merged now generation hs ha,
      observeAgain_of_quiet t.unlabelled merged now generation (by exact hs) (by exact ha)]
    rfl

theorem unlabelled_twice : t.unlabelled.previous.mapValues PreviousFlow.unlabelled =
    t.previous.mapValues PreviousFlow.unlabelled := by
  apply AList.ext
  exact List.map_map

/-- Records that differ in their labels only, held for the same Flow. -/
theorem insert_unlabelled {key : FlowKey} {previous previous' : PreviousFlow}
    (h : previous'.unlabelled = previous.unlabelled) :
    HashMap.mapValues (t.unlabelled.previous.insert key previous') PreviousFlow.unlabelled =
      HashMap.mapValues (t.previous.insert key previous) PreviousFlow.unlabelled := by
  rw [HashMap.insert_mapValues, HashMap.insert_mapValues, unlabelled_twice, h]

theorem observe_unlabelled :
    (t.unlabelled.observe merged now generation).1.map FlowUpdate.unlabelled =
        (t.observe merged now generation).1.map FlowUpdate.unlabelled ∧
      (t.unlabelled.observe merged now generation).2.unlabelled =
        (t.observe merged now generation).2.unlabelled := by
  have hlookup : AList.lookup merged.key t.unlabelled.previous =
      (AList.lookup merged.key t.previous).map PreviousFlow.unlabelled :=
    HashMap.lookup_mapValues _ _ _
  unfold FlowTracker.observe
  rw [hlookup]
  cases AList.lookup merged.key t.previous with
  | none =>
    refine ⟨rfl, congrArg (fun m => { t.unlabelled with previous := m }) ?_⟩
    exact insert_unlabelled t rfl
  | some previous =>
    have hagain := observeAgain_unlabelled t merged now generation previous
    simp only [Option.map_some, hagain]
    constructor
    · cases (t.observeAgain merged now generation previous).1 <;> rfl
    · refine congrArg (fun m => { t.unlabelled with previous := m }) ?_
      exact insert_unlabelled t rfl

/-- Two trackers that agree but for their labels. -/
theorem observeAll_unlabelled (ms : List MergedFlow) :
    (FlowTracker.observeAll now generation t.unlabelled ms).1.map FlowUpdate.unlabelled =
        (FlowTracker.observeAll now generation t ms).1.map FlowUpdate.unlabelled ∧
      (FlowTracker.observeAll now generation t.unlabelled ms).2.unlabelled =
        (FlowTracker.observeAll now generation t ms).2.unlabelled := by
  induction ms generalizing t with
  | nil =>
    refine ⟨rfl, congrArg (fun m => { t.unlabelled with previous := m }) ?_⟩
    exact unlabelled_twice t
  | cons merged ms ih =>
    obtain ⟨hupdate, htracker⟩ := observe_unlabelled t merged now generation
    obtain ⟨hupdates, hrest⟩ := ih (t.observe merged now generation).2
    obtain ⟨hupdates', hrest'⟩ := ih (t.unlabelled.observe merged now generation).2
    rw [htracker] at hupdates' hrest'
    simp only [FlowTracker.observeAll, List.map_append, ← Option.toList_map]
    exact ⟨congrArg₂ _ (congrArg Option.toList hupdate) (hupdates'.symm.trans hupdates),
      hrest'.symm.trans hrest⟩

theorem closingUpdate_unlabelled (key : FlowKey) (previous : PreviousFlow) :
    t.unlabelled.closingUpdate now generation key previous.unlabelled =
      (t.closingUpdate now generation key previous).map FlowUpdate.unlabelled := by
  unfold FlowTracker.closingUpdate
  rw [apply_ite (Option.map FlowUpdate.unlabelled)]
  rfl

theorem ageMissing_unlabelled :
    (t.unlabelled.ageMissing now generation).1.map FlowUpdate.unlabelled =
        (t.ageMissing now generation).1.map FlowUpdate.unlabelled ∧
      (t.unlabelled.ageMissing now generation).2.unlabelled =
        (t.ageMissing now generation).2.unlabelled := by
  constructor
  · change ((t.previous.entries.map _).filterMap _).map _ = (t.previous.entries.filterMap _).map _
    rw [List.filterMap_map, List.map_filterMap, List.map_filterMap]
    congr 1
    funext e
    simp only [Function.comp_apply, closingUpdate_unlabelled, Option.map_map]
    rfl
  · refine congrArg (fun m => { t.unlabelled with previous := m }) ?_
    change HashMap.mapValues (HashMap.retain t.unlabelled.previous _) _ =
      HashMap.mapValues (HashMap.retain t.previous _) _
    rw [FlowTracker.unlabelled, HashMap.retain_mapValues]
    apply AList.ext
    exact List.map_map

theorem purgeOwners_unlabelled :
    (t.unlabelled.purgeOwners now).unlabelled = (t.purgeOwners now).unlabelled :=
  congrArg (fun m => { (t.purgeOwners now).unlabelled with previous := m }) (unlabelled_twice t)

theorem setService_unlabelled (key : FlowKey) (label : String) :
    (t.unlabelled.setService key label).unlabelled = (t.setService key label).unlabelled := by
  have hlookup : AList.lookup key t.unlabelled.previous =
      (AList.lookup key t.previous).map PreviousFlow.unlabelled := HashMap.lookup_mapValues _ _ _
  unfold FlowTracker.setService
  rw [hlookup]
  cases AList.lookup key t.previous with
  | none =>
    have hunlabelled : t.unlabelled.unlabelled = t.unlabelled :=
      congrArg (fun m => { t.unlabelled with previous := m }) (unlabelled_twice t)
    simp only [Option.map_none]
    split <;> split <;> exact hunlabelled
  | some previous =>
    refine congrArg (fun m => { t.unlabelled with previous := m }) ?_
    exact insert_unlabelled t rfl

theorem recordOwner_unlabelled (key : OwnerKey) (value : OwnerValue) (at' : Instant) :
    (t.unlabelled.recordOwner key value at').unlabelled =
      (t.recordOwner key value at').unlabelled := by
  have hkept : ∀ owners listeners, FlowTracker.unlabelled { t.unlabelled with owners, listeners } =
      FlowTracker.unlabelled { t with owners, listeners } := fun owners listeners =>
    congrArg (fun m => { t.unlabelled with previous := m, owners, listeners }) (unlabelled_twice t)
  unfold FlowTracker.recordOwner
  split
  · exact hkept _ _
  · exact hkept _ _
  · exact hkept _ _

end Unlabelled

/-- Trackers that agree but for their labels. -/
def Alike (t t' : FlowTracker) : Prop := t.unlabelled = t'.unlabelled

/-- Updates that agree but for their labels. -/
def AlikeUpdates (us us' : List FlowUpdate) : Prop :=
  us.map FlowUpdate.unlabelled = us'.map FlowUpdate.unlabelled

namespace Alike

variable {t t' : FlowTracker} (h : Alike t t') (now : Instant) (generation : ℕ)

include h

theorem observeAll (ms : List MergedFlow) :
    AlikeUpdates (FlowTracker.observeAll now generation t ms).1
        (FlowTracker.observeAll now generation t' ms).1 ∧
      Alike (FlowTracker.observeAll now generation t ms).2
        (FlowTracker.observeAll now generation t' ms).2 := by
  obtain ⟨hupdates, htracker⟩ := observeAll_unlabelled t now generation ms
  obtain ⟨hupdates', htracker'⟩ := observeAll_unlabelled t' now generation ms
  rw [← h] at hupdates' htracker'
  exact ⟨hupdates.symm.trans hupdates', htracker.symm.trans htracker'⟩

theorem ageMissing :
    AlikeUpdates (t.ageMissing now generation).1 (t'.ageMissing now generation).1 ∧
      Alike (t.ageMissing now generation).2 (t'.ageMissing now generation).2 := by
  obtain ⟨hupdates, htracker⟩ := ageMissing_unlabelled t now generation
  obtain ⟨hupdates', htracker'⟩ := ageMissing_unlabelled t' now generation
  rw [← h] at hupdates' htracker'
  exact ⟨hupdates.symm.trans hupdates', htracker.symm.trans htracker'⟩

theorem purgeOwners : Alike (t.purgeOwners now) (t'.purgeOwners now) := by
  have hpurged := purgeOwners_unlabelled t' now
  rw [← h, purgeOwners_unlabelled] at hpurged
  exact hpurged

theorem reconcile {merged : List MergedFlow} :
    AlikeUpdates ({ t with merged }.reconcile now).1 ({ t' with merged }.reconcile now).1 ∧
      Alike ({ t with merged }.reconcile now).2 ({ t' with merged }.reconcile now).2 := by
  have hgeneration : t.generation = t'.generation := congrArg (·.generation) h
  have hclock : t.clock = t'.clock := congrArg (·.clock) h
  have hanchored : FlowTracker.anchored { t with merged } now =
      FlowTracker.anchored { t' with merged } now := by
    unfold FlowTracker.anchored
    rw [hclock]
  have hstart : ∀ generation clock, Alike { t with generation, clock, merged := [] }
      { t' with generation, clock, merged := [] } := by
    intro generation clock
    exact congrArg (fun u : FlowTracker => { u with generation, clock, merged := [] }) h
  have hnext : FlowTracker.nextGeneration { t with merged } =
      FlowTracker.nextGeneration { t' with merged } :=
    congrArg (fun generation => (generation + 1) % 2 ^ 64) hgeneration
  obtain ⟨hupdates, hobserved⟩ := (hstart (FlowTracker.nextGeneration { t with merged })
    (FlowTracker.anchored { t with merged } now)).observeAll now
      (FlowTracker.nextGeneration { t with merged }) merged
  obtain ⟨hclosed, haged⟩ := hobserved.ageMissing now (FlowTracker.nextGeneration { t with merged })
  unfold FlowTracker.reconcile
  simp only [← hnext, ← hanchored]
  refine ⟨?_, haged.purgeOwners now⟩
  unfold AlikeUpdates at hupdates hclosed ⊢
  rw [List.map_append, List.map_append]
  exact congrArg₂ _ hupdates hclosed

theorem handle (event : TrackerEvent) :
    AlikeUpdates (t.handle event).1 (t'.handle event).1 ∧
      Alike (t.handle event).2 (t'.handle event).2 := by
  cases event with
  | poll now merged => exact h.reconcile now
  | service key label =>
    have hlabel := setService_unlabelled t' key label
    rw [← h, setService_unlabelled] at hlabel
    exact ⟨rfl, hlabel⟩
  | owner key value at' =>
    have howner := recordOwner_unlabelled t' key value at'
    rw [← h, recordOwner_unlabelled] at howner
    exact ⟨rfl, howner⟩

theorem run (events : List TrackerEvent) : AlikeUpdates (t.run events).1 (t'.run events).1 := by
  induction events generalizing t t' with
  | nil => rfl
  | cons event events ih =>
    obtain ⟨hupdates, hafter⟩ := h.handle event
    have hrest := ih hafter
    unfold AlikeUpdates at hupdates hrest ⊢
    simp only [FlowTracker.run, List.map_append]
    exact congrArg₂ _ hupdates hrest

theorem resume (rest : List MergedFlow) (events : List TrackerEvent) :
    AlikeUpdates (t.resume now generation rest events) (t'.resume now generation rest events) := by
  obtain ⟨hupdates, hobserved⟩ := h.observeAll now generation rest
  obtain ⟨hclosed, haged⟩ := hobserved.ageMissing now generation
  have hrun := (haged.purgeOwners now).run events
  unfold AlikeUpdates at hupdates hclosed hrun ⊢
  unfold FlowTracker.resume
  simp only [List.map_append]
  exact congrArg₂ _ (congrArg₂ _ hupdates hclosed) hrun

end Alike

theorem endings_alike {key : FlowKey} {us us' : List FlowUpdate} (h : AlikeUpdates us us') :
    endings key us = endings key us' := by
  have hunlabelled : ∀ us : List FlowUpdate,
      endings key (us.map FlowUpdate.unlabelled) = endings key us := by
    intro us
    unfold endings updatesOf
    rw [List.filter_map, List.filterMap_map]
    rfl
  rw [← hunlabelled us, h, hunlabelled]

/-! ## Resets -/

/-- The record is what a poll notes of the entry. -/
structure PreviousFlow.Notes (held : PreviousFlow) (merged : MergedFlow) (generation : ℕ) : Prop where
  generation : held.generation = generation
  total : held.total = merged.total
  lastSeenNs : held.lastSeenNs = merged.lastSeenNs
  tcpFlags : held.tcpFlags = merged.tcpFlags

section Reset

variable {t : FlowTracker} {merged : MergedFlow} {now : Instant} {generation : ℕ} {key : FlowKey}
  {previous held : PreviousFlow}

theorem activeIn_of_recreatedBy (h : previous.recreatedBy merged = true) :
    previous.activeIn merged = true := by
  unfold PreviousFlow.activeIn
  rw [h, Bool.true_or]

/-- The state a reset leaves: nothing but a gained flag ends the Flow. -/
theorem stateAfter_of_recreatedBy (idleTimeout : Duration) (now : Instant)
    (h : previous.recreatedBy merged = true) :
    previous.stateAfter idleTimeout merged now = .active ↔
      gainedFlag tcpRst merged previous = false ∧ gainedFlag tcpFin merged previous = false := by
  unfold PreviousFlow.stateAfter
  rw [activeIn_of_recreatedBy h]
  cases gainedFlag tcpRst merged previous <;> cases gainedFlag tcpFin merged previous <;> simp

/-- A Flow that the poll observed does not age. -/
theorem ageMissing_of_observed (now : Instant) (hheld : AList.lookup key t.previous = some held)
    (hg : held.generation = generation) :
    updatesOf key (t.ageMissing now generation).1 = [] ∧
      AList.lookup key (t.ageMissing now generation).2.previous = some held := by
  have hkeeps : t.keeps now generation held = true := by
    unfold FlowTracker.keeps
    simp [hg]
  constructor
  · rw [updatesOf_closed, hheld]
    unfold FlowTracker.closingUpdate
    rw [Option.bind_some, hkeeps]
    rfl
  · rw [(ageMissing_spec now generation t key).2, hheld, Option.filter_some, if_pos hkeeps]

/-- A poll of one entry emits of its Flow what the observation does. -/
theorem endings_poll {later : Instant} :
    endings merged.key (t.handle (.poll later [merged])).1 =
      (({ t with
          generation := FlowTracker.nextGeneration { t with merged := [merged] }
          clock := FlowTracker.anchored { t with merged := [merged] } later
          merged := [] } : FlowTracker).observe merged later
            (FlowTracker.nextGeneration { t with merged := [merged] })).1.toList.filterMap
        fun update => update.state.endReason := by
  generalize hgeneration : FlowTracker.nextGeneration { t with merged := [merged] } = generation
  generalize hstart : ({ t with
    generation
    clock := FlowTracker.anchored { t with merged := [merged] } later
    merged := [] } : FlowTracker) = t₀
  obtain ⟨⟨held, hheld, hg, -⟩, -⟩ := observe_observes t₀ merged later generation
  have hclosed := (ageMissing_of_observed later hheld hg).1
  have hpoll : (t.handle (.poll later [merged])).1 =
      (t₀.observe merged later generation).1.toList ++ [] ++
        ((t₀.observe merged later generation).2.ageMissing later generation).1 := by
    subst hgeneration hstart
    rfl
  unfold endings
  rw [hpoll, List.append_nil, updatesOf_append, updatesOf_observe, if_pos rfl, hclosed,
    List.append_nil]

/-- A poll that sees nothing new of a Flow ends it if it is active and idle. -/
theorem endings_idle (hheld : AList.lookup merged.key t.previous = some held)
    (hnoted : held.Notes merged generation) :
    endings merged.key (t.handle (.poll (held.lastSeen + t.idleTimeout) [merged])).1 =
      if held.state = .active then [.idleTimeout] else [] := by
  have hquiet : held.activeIn merged = false := by
    unfold PreviousFlow.activeIn PreviousFlow.recreatedBy
    simp [hnoted.total, hnoted.lastSeenNs]
  have hgained : ∀ flag, gainedFlag flag merged held = false := by
    intro flag
    unfold gainedFlag
    rw [hnoted.tcpFlags]
    by_cases hflag : merged.tcpFlags &&& flag = 0 <;> simp [hflag]
  have hidle : t.idleTimeout ≤
      Instant.saturatingDurationSince (held.lastSeen + t.idleTimeout) held.lastSeen :=
    Instant.le_saturatingDurationSince le_rfl
  have hstate : held.stateAfter t.idleTimeout merged (held.lastSeen + t.idleTimeout) =
      .ended .idleTimeout := by
    unfold PreviousFlow.stateAfter
    rw [hgained, hgained, hquiet]
    simp [hidle]
  rw [endings_poll]
  unfold FlowTracker.observe
  simp only [hheld]
  by_cases hs : held.state = .active
  · rw [observeAgain_of_seen _ _ _ _ (Or.inl hs), if_pos hs]
    simp only [hstate]
    rfl
  · rw [observeAgain_of_quiet _ _ _ _ hs hquiet, if_neg hs]
    rfl

/-- What the next idle poll tells of the state a poll left a Flow in. -/
theorem endings_resume (hheld : AList.lookup merged.key t.previous = some held)
    (hnoted : held.Notes merged generation) :
    endings merged.key
        (t.resume now generation [] [.poll (held.lastSeen + t.idleTimeout) [merged]]) =
      if held.state = .active then [.idleTimeout] else [] := by
  obtain ⟨hclosed, hkept⟩ := ageMissing_of_observed now hheld hnoted.generation
  have hidle := endings_idle (t := (t.ageMissing now generation).2.purgeOwners now) hkept hnoted
  rw [← hidle]
  unfold endings FlowTracker.resume
  simp only [FlowTracker.observeAll, FlowTracker.run, List.nil_append, List.append_nil,
    updatesOf_append, hclosed]
  rfl

/-- Flows that end alike whatever comes are both active, or neither is. -/
theorem active_of_endings {t' : FlowTracker} {held' : PreviousFlow}
    (hheld : AList.lookup merged.key t.previous = some held)
    (hheld' : AList.lookup merged.key t'.previous = some held')
    (hnoted : held.Notes merged generation) (hnoted' : held'.Notes merged generation)
    (hlast : held.lastSeen = held'.lastSeen) (hidle : t.idleTimeout = t'.idleTimeout)
    (hendings : ∀ rest events, endings merged.key (t.resume now generation rest events) =
      endings merged.key (t'.resume now generation rest events)) :
    held.state = .active ↔ held'.state = .active := by
  have hprobe := hendings [] [.poll (held.lastSeen + t.idleTimeout) [merged]]
  rw [endings_resume hheld hnoted, hlast, hidle, endings_resume hheld' hnoted'] at hprobe
  by_cases h : held.state = .active <;> by_cases h' : held'.state = .active <;> simp_all

theorem observe_forget : (t.forget merged.key).observe merged now generation =
    (some ((t.forget merged.key).observeNew merged now generation).1,
      ((t.forget merged.key).observeNew merged now generation).2) := by
  unfold FlowTracker.observe
  rw [show AList.lookup merged.key (t.forget merged.key).previous = none from AList.lookup_erase _ _]

theorem observe_of_held (hheld : AList.lookup merged.key t.previous = some previous) :
    t.observe merged now generation =
      ((t.observeAgain merged now generation previous).1, { t with
        previous := t.previous.insert merged.key
          (t.observeAgain merged now generation previous).2 }) := by
  unfold FlowTracker.observe
  rw [hheld]

end Reset

/-- A reset starts the Flow anew exactly when the old record has nothing to leave. -/
theorem starts_anew_iff {t : FlowTracker} {merged : MergedFlow} {now : Instant} {generation : ℕ}
    {previous : PreviousFlow} (hheld : AList.lookup merged.key t.previous = some previous)
    (hreset : previous.recreatedBy merged = true) :
    StartsAnew t merged now generation ↔ LeavesNothing t merged previous := by
  have hagain := observeAgain_of_seen t merged now generation
    (Or.inr (activeIn_of_recreatedBy hreset))
  have hstate := stateAfter_of_recreatedBy t.idleTimeout now hreset
  rw [if_pos hreset, if_pos hreset] at hagain
  constructor
  · rintro ⟨⟨update, fresh, hupdate, hnew, -, -, hservice, happlication⟩, hendings⟩
    have hkept : AList.lookup merged.key (t.observe merged now generation).2.previous =
        some (t.observeAgain merged now generation previous).2 := by
      rw [observe_of_held hheld]
      exact AList.lookup_insert _
    have hfresh : AList.lookup merged.key
        ((t.forget merged.key).observe merged now generation).2.previous = some {
          total := merged.total
          firstSeen := t.clock.toInstant now merged.firstSeenNs
          lastSeen := t.clock.toInstant now merged.lastSeenNs
          lastSeenNs := merged.lastSeenNs
          tcpFlags := merged.tcpFlags
          state := .active
          generation
          service := AList.lookup merged.key t.pendingServices
          application := t.resolveApplication merged.key } := by
      rw [observe_forget]
      exact AList.lookup_insert _
    rw [hagain] at hkept
    have hboth := active_of_endings hkept hfresh ⟨rfl, rfl, rfl, rfl⟩ ⟨rfl, rfl, rfl, rfl⟩ rfl
      ((idleTimeout_observe ..).trans
        (idleTimeout_observe (t.forget merged.key) merged now generation).symm) hendings
    rw [observe_of_held hheld, hagain] at hupdate
    rw [observe_forget] at hnew
    obtain ⟨hrst, hfin⟩ := hstate.mp (hboth.mpr rfl)
    obtain rfl := Option.some.inj hupdate
    obtain rfl := Option.some.inj hnew
    refine ⟨hservice, ?_, hrst, hfin⟩
    cases happ : previous.application with
    | none => exact Or.inl rfl
    | some application =>
      rw [happ] at happlication
      exact Or.inr happlication
  · rintro ⟨hservice, happlication, hrst, hfin⟩
    have hactive : previous.stateAfter t.idleTimeout merged now = .active :=
      hstate.mpr ⟨hrst, hfin⟩
    have hsame : previous.application.or (t.resolveApplication merged.key) =
        t.resolveApplication merged.key := by
      rcases happlication with hnone | hsome
      · rw [hnone, Option.none_or]
      · rw [hsome, Option.or_self]
    rw [hactive, hsame, hservice] at hagain
    constructor
    · rw [observe_of_held hheld, hagain, observe_forget]
      exact ⟨_, _, rfl, rfl, rfl, rfl, rfl, rfl⟩
    · intro rest events
      rw [observe_of_held hheld, hagain, observe_forget]
      apply endings_alike
      apply Alike.resume
      refine congrArg (fun m => { t.unlabelled with
        previous := HashMap.mapValues m PreviousFlow.unlabelled }) ?_
      exact (HashMap.insert_erase ..).symm

section Example

/-- A tracker that has seen five packets. -/
def sshTracker : FlowTracker :=
  ((FlowTracker.new (fromSecs 30)).observe (sshSighting 5 500 200) 0 1).2

theorem starts_anew_unlabelled : StartsAnew sshTracker (sshSighting 2 200 400) 10 2 :=
  (starts_anew_iff (AList.lookup_insert _) (by decide)).mpr ⟨rfl, .inl rfl, by decide, by decide⟩

/-- The label of the old entry is told of the new one. -/
theorem reset_keeps_label : ¬ ∀ (t : FlowTracker) (merged : MergedFlow) (now : Instant)
    (generation : ℕ) (previous : PreviousFlow),
    AList.lookup merged.key t.previous = some previous → previous.recreatedBy merged = true →
      StartsAnew t merged now generation := by
  intro h
  have hheld : AList.lookup sshFlow (sshTracker.setService sshFlow "SSH").previous =
      some _ := AList.lookup_insert _
  obtain ⟨⟨update, fresh, hupdate, hfresh, -, -, hservice, -⟩, -⟩ :=
    h (sshTracker.setService sshFlow "SSH") (sshSighting 2 200 400) 10 2 _ hheld (by decide)
  have hold : update.service = some "SSH" := by
    obtain rfl := Option.some.inj hupdate
    rfl
  have hnew : fresh.service = none := by
    obtain rfl := Option.some.inj hfresh
    rfl
  rw [hold, hnew] at hservice
  cases hservice

end Example

end ZimaScope
