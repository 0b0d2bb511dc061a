import ZimaScope.Api.Tick

/-! # The patch protocol

A subscriber that is there from the start, without a filter: it replaces a record by
each full one it gets, and merges each patch into the record it holds. A patch
always finds a record; the record is exact as long as nothing but counters and the
time last seen changes under an unchanged signature.
-/

namespace ZimaScope

open TrafficDb Storage

namespace HashMap

variable {κ α β : Type} [DecidableEq κ] {f : HashMap κ α → β → HashMap κ α} {key : β → κ}
  {g : β → Option α → Option α} {items : List β} {m : HashMap κ α} {k : κ}

/-- Updates of other keys leave a key alone. -/
theorem lookup_foldl_of_forall_ne
    (hf : ∀ m b k, AList.lookup k (f m b) = if k = key b then g b (AList.lookup k m) else AList.lookup k m)
    (hne : ∀ b ∈ items, key b ≠ k) : AList.lookup k (items.foldl f m) = AList.lookup k m := by
  induction items generalizing m with
  | nil => rfl
  | cons b items ih =>
    rw [List.foldl_cons, ih fun b' hb' => hne b' (List.mem_cons_of_mem _ hb'), hf,
      if_neg (hne b List.mem_cons_self).symm]

/-- Of updates of different keys, one updates a key. -/
theorem lookup_foldl_of_mem
    (hf : ∀ m b k, AList.lookup k (f m b) = if k = key b then g b (AList.lookup k m) else AList.lookup k m)
    (hnodup : (items.map key).Nodup) {b : β} (hb : b ∈ items) :
    AList.lookup (key b) (items.foldl f m) = g b (AList.lookup (key b) m) := by
  induction items generalizing m with
  | nil => simp at hb
  | cons b' items ih =>
    rw [List.map_cons, List.nodup_cons] at hnodup
    rw [List.foldl_cons]
    rcases List.mem_cons.mp hb with rfl | hb
    · have hne : ∀ other ∈ items, key other ≠ key b := fun other hother heq =>
        hnodup.1 (List.mem_map.mpr ⟨other, hother, heq⟩)
      rw [lookup_foldl_of_forall_ne hf hne, hf, if_pos rfl]
    · have hne : key b ≠ key b' := fun heq => hnodup.1 (List.mem_map.mpr ⟨b, hb, heq⟩)
      rw [ih hnodup.2 hb, hf, if_neg hne]

end HashMap

/-- The records of a client. -/
abbrev Held := HashMap UInt64 FlowDto

/-- Full records replace what is held, patches are merged into it. -/
def Held.receive (held : Held) (tick : TickDto) : Held :=
  tick.flowUpdates.foldl (fun held patch =>
      (AList.lookup patch.id held).elim held fun flow => held.insert patch.id (patch.merge flow))
    (tick.flows.foldl (fun held flow => held.insert flow.id flow) held)

/-- What the subscriber saw of one interval: the records it held, the tick and the records it holds
then; with the tables at the end and the rates. -/
structure Received where
  before : Held
  tick : TickDto
  after : Held
  tables : Tables
  rates : Table EntityKey (ℤ × ℤ)

/-- Every patch finds a record. -/
def Received.Known (r : Received) : Prop :=
  ∀ patch ∈ r.tick.flowUpdates, (AList.lookup patch.id r.before).isSome = true

/-- The record of every flow in the tick is the one that is stored. -/
def Received.Exact (r : Received) : Prop :=
  ∀ id, id ∈ r.tick.flows.map FlowDto.id ∨ id ∈ r.tick.flowUpdates.map FlowPatchDto.id →
    ∃ record, recordOf r.tables id = some record ∧
      AList.lookup id r.after = some (record.toDto r.rates)

structure Watcher where
  live : LiveDb := {}
  held : Held := ∅
  received : List Received := []

inductive WatcherEvent
  | ingest (input : LiveInput) (faults : List (Option String))
  | clearHistory (faults : List (Option String))
  | saveSettings (settings : Settings) (nowInstant : Instant) (now : SystemTime)
      (faults : List (Option String))

/-- Fields of a record that a patch does not carry, apart from the state. -/
structure FlowDto.SameDetails (held flow : FlowDto) : Prop where
  direction : held.direction = flow.direction
  protocol : held.protocol = flow.protocol
  source : held.source = flow.source
  destination : held.destination = flow.destination
  remote : held.remote = flow.remote
  remoteProfile : held.remoteProfile = flow.remoteProfile
  interface : held.interface = flow.interface
  firstSeen : held.firstSeen = flow.firstSeen
  durationMs : held.durationMs = flow.durationMs
  domains : held.domains = flow.domains
  application : held.application = flow.application
  unattributedReason : held.unattributedReason = flow.unattributedReason

section Watchers

variable (flowId : FlowKey → UInt64)

def Watcher.next (s : Watcher) : WatcherEvent → Watcher
  | .ingest input faults =>
    let (event, live) := s.live.ingest flowId input faults
    let tick := event.tick .all
    let held := s.held.receive tick
    { live, held, received := s.received ++ [⟨s.held, tick, held, live.db.tables, input.rates⟩] }
  | .clearHistory faults => { s with live := s.live.clearHistory faults }
  | .saveSettings settings nowInstant now faults =>
    { s with live := (s.live.saveSettings settings nowInstant now faults).2 }

/-- The runs of events that meet a condition, with a subscriber from the start. -/
def watchers (cond : Watcher → WatcherEvent → Prop) : System Watcher where
  init s := s.live.tickDetails = ∅ ∧ s.held = ∅ ∧ s.received = []
  step s s' := ∃ event, cond s event ∧ s' = s.next flowId event

/-- Where the batch has traffic of an active flow whose signature is the one sent last, the rest of
the record is the one that was sent, too. -/
def Steady (s : Watcher) : WatcherEvent → Prop
  | .ingest input faults =>
    (∃ result c, runInterval flowId input.toIngestInput ⟨s.live.db, faults⟩ = (.ok result, c)) →
      ∀ id record held, flowMoved flowId input.batch.flows id = true →
        nextRecord input.toIngestInput flowId s.live.db id = some record →
        record.row.state = .active →
        AList.lookup id s.live.tickDetails = some (flowDetailSignature (record.toDto input.rates)) →
        AList.lookup id s.held = some held → held.SameDetails (record.toDto input.rates)
  | _ => True

end Watchers

/-! ## One tick -/

section Tick

variable {held : Held} {tick : TickDto}

/-- What is held after a tick. -/
theorem lookup_receive (held : Held) (hflows : (tick.flows.map FlowDto.id).Nodup)
    (hpatches : (tick.flowUpdates.map FlowPatchDto.id).Nodup)
    (hdisjoint : ∀ flow ∈ tick.flows, ∀ patch ∈ tick.flowUpdates, flow.id ≠ patch.id) :
    (∀ flow ∈ tick.flows, AList.lookup flow.id (held.receive tick) = some flow) ∧
      (∀ patch ∈ tick.flowUpdates, AList.lookup patch.id (held.receive tick) =
        (AList.lookup patch.id held).map patch.merge) ∧
      ∀ id, (∀ flow ∈ tick.flows, flow.id ≠ id) → (∀ patch ∈ tick.flowUpdates, patch.id ≠ id) →
        AList.lookup id (held.receive tick) = AList.lookup id held := by
  have hinsert : ∀ (m : Held) (flow : FlowDto) k, AList.lookup k (m.insert flow.id flow) =
      if k = flow.id then some flow else AList.lookup k m := by
    intro m flow k
    split
    · next hk => rw [hk, AList.lookup_insert]
    · next hk => exact AList.lookup_insert_ne hk
  have hmerge : ∀ (m : Held) (patch : FlowPatchDto) k,
      AList.lookup k ((AList.lookup patch.id m).elim m fun flow =>
        m.insert patch.id (patch.merge flow)) =
        if k = patch.id then (AList.lookup k m).map patch.merge else AList.lookup k m := by
    intro m patch k
    split
    · next hk =>
      subst hk
      cases hlookup : AList.lookup patch.id m with
      | none => exact hlookup
      | some flow => exact AList.lookup_insert _
    · next hk =>
      cases AList.lookup patch.id m with
      | none => rfl
      | some flow => exact AList.lookup_insert_ne hk
  unfold Held.receive
  refine ⟨fun flow hflow => ?_, fun patch hpatch => ?_, fun id hflow hpatch => ?_⟩
  · rw [HashMap.lookup_foldl_of_forall_ne (g := fun patch => Option.map patch.merge) hmerge
      fun patch hpatch => (hdisjoint flow hflow patch hpatch).symm]
    exact HashMap.lookup_foldl_of_mem (g := fun flow _ => some flow) hinsert hflows hflow
  · rw [HashMap.lookup_foldl_of_mem (g := fun patch => Option.map patch.merge) hmerge hpatches hpatch,
      HashMap.lookup_foldl_of_forall_ne (g := fun flow _ => some flow) hinsert
        fun flow hflow => hdisjoint flow hflow patch hpatch]
  · rw [HashMap.lookup_foldl_of_forall_ne (g := fun patch => Option.map patch.merge) hmerge hpatch,
      HashMap.lookup_foldl_of_forall_ne (g := fun flow _ => some flow) hinsert hflow]

variable {moved : UInt64 → Bool} {details : HashMap UInt64 String} {flows : List FlowDto}
  {p : TickProgress}

/-- The patch makes the record of what is held, if the rest agrees. -/
theorem FlowDto.merge_eq_iff {flow old : FlowDto} : (FlowPatchDto.ofFlow flow).merge old = flow ↔
    old.id = flow.id ∧ old.state = flow.state ∧ old.endReason = flow.endReason ∧
      old.SameDetails flow := by
  constructor
  · intro h
    rw [← h]
    exact ⟨rfl, rfl, rfl, ⟨rfl, rfl, rfl, rfl, rfl, rfl, rfl, rfl, rfl, rfl, rfl, rfl⟩⟩
  · rintro ⟨hid, hstate, hreason, h⟩
    cases old
    cases flow
    cases h
    simp_all [FlowPatchDto.ofFlow, FlowPatchDto.merge]

/-- Behind every signature that was sent last is a record that is held, of an active flow. -/
def Sent (details : HashMap UInt64 String) (held : Held) : Prop :=
  ∀ id signature, AList.lookup id details = some signature →
    ∃ flow, AList.lookup id held = some flow ∧ flow.id = id ∧ flow.state = .active ∧
      flow.endReason = none

theorem sent_empty : Sent ∅ held := by
  intro id signature h
  simp at h

/-- The tick of all that an interval has for subscribers. -/
structure TickDto.Of (tick : TickDto) (p : TickProgress) : Prop where
  flows : tick.flows = p.flows.filter fun flow => flow.id ∉ p.patched
  flowUpdates : tick.flowUpdates =
    (p.flows.filter fun flow => flow.id ∈ p.patched).map FlowPatchDto.ofFlow

/-- What a client holds that has received the tick. -/
structure Delivery (held : Held) (tick : TickDto) (p : TickProgress)
    (details : HashMap UInt64 String) : Prop where
  full : ∀ flow ∈ p.flows, flow.id ∉ p.patched →
    AList.lookup flow.id (held.receive tick) = some flow
  patch : ∀ flow ∈ p.flows, flow.id ∈ p.patched → ∃ old,
    AList.lookup flow.id details = some (flowDetailSignature flow) ∧ flow.state = .active ∧
      AList.lookup flow.id held = some old ∧ old.id = flow.id ∧ old.state = .active ∧
      old.endReason = none ∧
      AList.lookup flow.id (held.receive tick) = some ((FlowPatchDto.ofFlow flow).merge old)
  other : ∀ id, (∀ flow ∈ p.flows, flow.id ≠ id) →
    AList.lookup id (held.receive tick) = AList.lookup id held

theorem Ticked.delivery (h : Ticked moved details flows p) (htick : tick.Of p)
    (hnodup : (flows.map FlowDto.id).Nodup) (hsent : Sent details held) :
    Delivery held tick p details := by
  have hids : (p.flows.map FlowDto.id).Nodup := hnodup.sublist (h.taken.map _)
  have hfull : ∀ flow ∈ tick.flows, flow ∈ p.flows ∧ flow.id ∉ p.patched := by
    intro flow hflow
    rw [htick.flows, List.mem_filter, decide_eq_true_eq] at hflow
    exact hflow
  have hpatch : ∀ patch ∈ tick.flowUpdates, ∃ flow ∈ p.flows, flow.id ∈ p.patched ∧
      FlowPatchDto.ofFlow flow = patch := by
    intro patch hpatch
    rw [htick.flowUpdates] at hpatch
    obtain ⟨flow, hflow, heq⟩ := List.mem_map.mp hpatch
    rw [List.mem_filter, decide_eq_true_eq] at hflow
    exact ⟨flow, hflow.1, hflow.2, heq⟩
  have hflowIds : (tick.flows.map FlowDto.id).Nodup := by
    rw [htick.flows]
    exact hids.sublist (List.filter_sublist.map _)
  have hpatchIds : (tick.flowUpdates.map FlowPatchDto.id).Nodup := by
    rw [htick.flowUpdates, List.map_map]
    exact hids.sublist (List.filter_sublist.map _)
  have hdisjoint : ∀ flow ∈ tick.flows, ∀ patch ∈ tick.flowUpdates, flow.id ≠ patch.id := by
    rintro flow hflow _ hmem heq
    obtain ⟨other, -, hother, rfl⟩ := hpatch _ hmem
    exact (hfull flow hflow).2 (heq ▸ hother)
  obtain ⟨hflows, hpatches, hothers⟩ := lookup_receive held hflowIds hpatchIds hdisjoint
  constructor
  · intro flow hflow hid
    apply hflows
    rw [htick.flows, List.mem_filter]
    exact ⟨hflow, decide_eq_true hid⟩
  · intro flow hflow hid
    obtain ⟨other, hother, heq, -, hactive, hsignature⟩ := h.patched _ hid
    obtain rfl : other = flow :=
      List.inj_on_of_nodup_map hnodup hother (h.taken.subset hflow) heq
    obtain ⟨old, hold, holdId, hstate, hreason⟩ := hsent _ _ hsignature
    have hmem : FlowPatchDto.ofFlow other ∈ tick.flowUpdates := by
      rw [htick.flowUpdates]
      exact List.mem_map_of_mem (List.mem_filter.mpr ⟨hflow, decide_eq_true hid⟩)
    have hafter := hpatches _ hmem
    have hofId : (FlowPatchDto.ofFlow other).id = other.id := rfl
    rw [hofId, hold] at hafter
    exact ⟨old, hsignature, hactive, hold, holdId, hstate, hreason, hafter⟩
  · intro id hnone
    apply hothers
    · intro flow hflow
      exact hnone flow (hfull flow hflow).1
    · intro patch hmem
      obtain ⟨flow, hflow, -, rfl⟩ := hpatch patch hmem
      exact hnone flow hflow

/-- The signatures of a tick are those of records that its receiver holds. -/
theorem Ticked.sent (h : Ticked moved details flows p) (hdelivery : Delivery held tick p details)
    (hreason : ∀ flow ∈ flows, flow.state = .active → flow.endReason = none)
    (hsent : Sent details held) : Sent p.details (held.receive tick) := by
  intro id signature hlookup
  rcases h.signatures id signature hlookup with ⟨flow, hflow, rfl, hactive⟩ | ⟨hfirst, hnone⟩
  · by_cases hid : flow.id ∈ p.patched
    · obtain ⟨old, -, -, -, holdId, hstate, holdReason, hafter⟩ := hdelivery.patch flow hflow hid
      exact ⟨_, hafter, holdId, hstate, holdReason⟩
    · exact ⟨flow, hdelivery.full flow hflow hid, rfl, hactive,
        hreason flow (h.taken.subset hflow) hactive⟩
  · rw [hdelivery.other id hnone]
    exact hsent id signature hfirst

end Tick

/-! ## Runs -/

section Runs

variable {flowId : FlowKey → UInt64} {s : Watcher} {event : WatcherEvent}

theorem endReason_toDto {record : FlowRecord} {rates : Table EntityKey (ℤ × ℤ)}
    (h : (record.toDto rates).state = .active) : record.row.state = .active ∧
      (record.toDto rates).endReason = none := by
  unfold FlowRecord.toDto at *
  cases hstate : record.row.state with
  | active => exact ⟨rfl, by simp [hstate, FlowState.endReason]⟩
  | ended reason => simp [hstate, FlowState.dto] at h

/-- Every signature sent last has its record, and no patch came without. -/
structure Watcher.Kept (s : Watcher) : Prop where
  sent : Sent s.live.tickDetails s.held
  known : ∀ r ∈ s.received, r.Known

/-- What a subscriber gets of an interval that gets through. -/
structure Watcher.Served (flowId : FlowKey → UInt64) (s s' : Watcher) (input : LiveInput)
    (updated : List FlowRecord) : Prop where
  ticked : Ticked (flowMoved flowId input.batch.flows) s.live.tickDetails
    (updated.map fun record => record.toDto input.rates)
    (tickFlows flowId input.toIngestInput s.live.tickDetails updated)
  delivery : ∃ r, s'.received = s.received ++ [r] ∧ r.before = s.held ∧ r.after = s'.held ∧
    r.rates = input.rates ∧ r.tables = s'.live.db.tables ∧ s'.held = s.held.receive r.tick ∧
    r.tick.Of (tickFlows flowId input.toIngestInput s.live.tickDetails updated)
  reads : ∃ overview, Reads input.toIngestInput flowId s.live.db (updated, overview) s'.live.db
  details : s'.live.tickDetails = ∅ ∨
    s'.live.tickDetails = (tickFlows flowId input.toIngestInput s.live.tickDetails updated).details

/-- An interval that does not get through brings a subscriber nothing. -/
structure Watcher.Missed (s s' : Watcher) : Prop where
  held : s'.held = s.held
  details : s'.live.tickDetails = s.live.tickDetails
  received : ∃ r, s'.received = s.received ++ [r] ∧ r.tick.flows = [] ∧ r.tick.flowUpdates = []

theorem next_ingest (input : LiveInput) (faults : List (Option String)) :
    (∃ updated overview c,
      runInterval flowId input.toIngestInput ⟨s.live.db, faults⟩ = (.ok (updated, overview), c) ∧
        s.Served flowId (s.next flowId (.ingest input faults)) input updated) ∨
      s.Missed (s.next flowId (.ingest input faults)) := by
  rcases hrun : runInterval flowId input.toIngestInput ⟨s.live.db, faults⟩ with
    ⟨err | ⟨updated, overview⟩, c⟩
  · have hevent := ingest_of_error hrun
    right
    unfold Watcher.next
    simp only [hevent]
    exact ⟨rfl, rfl, _, rfl, rfl, rfl⟩
  · have hreads := ends_runInterval faults (updated, overview) c hrun
    have hevent := ingest_of_ok hrun
    refine Or.inl ⟨updated, overview, c, rfl, ?_⟩
    unfold Watcher.next
    simp only [hevent]
    constructor
    · apply ticked_foldl
      rw [List.map_map]
      exact hreads.nodup
    · refine ⟨_, rfl, rfl, rfl, rfl, rfl, rfl, ?_⟩
      constructor
      · rw [LiveEvent.tick, StreamFilter.filter_matches_all]
      · rw [LiveEvent.tick, StreamFilter.filter_matches_all]
    · exact ⟨overview, hreads⟩
    · simp only
      split
      · exact Or.inl rfl
      · exact Or.inr rfl

theorem Watcher.Served.kept {s' : Watcher} {input : LiveInput} {updated : List FlowRecord}
    (h : s.Served flowId s' input updated) (hs : s.Kept) : s'.Kept := by
  obtain ⟨r, hreceived, hbefore, -, -, -, hheld, htick⟩ := h.delivery
  obtain ⟨overview, hreads⟩ := h.reads
  have hnodup : ((updated.map fun record => record.toDto input.rates).map FlowDto.id).Nodup := by
    rw [List.map_map]
    exact hreads.nodup
  have hdelivery := h.ticked.delivery htick hnodup hs.sent
  constructor
  · rcases h.details with hnone | hdetails
    · rw [hnone]
      exact sent_empty
    · rw [hdetails, hheld]
      apply h.ticked.sent hdelivery ?_ hs.sent
      intro flow hflow hactive
      obtain ⟨record, -, rfl⟩ := List.mem_map.mp hflow
      exact (endReason_toDto hactive).2
  · rw [hreceived]
    intro r' hr'
    rcases List.mem_append.mp hr' with hr' | hr'
    · exact hs.known r' hr'
    · obtain rfl := List.mem_singleton.mp hr'
      intro patch hpatch
      rw [htick.flowUpdates] at hpatch
      obtain ⟨flow, hflow, rfl⟩ := List.mem_map.mp hpatch
      rw [List.mem_filter, decide_eq_true_eq] at hflow
      obtain ⟨old, -, -, hold, -⟩ := hdelivery.patch flow hflow.1 hflow.2
      rw [hbefore]
      exact Option.isSome_of_eq_some hold

/-- The signatures are all forgotten, or none. -/
theorem details_saveSettings {live : LiveDb} {settings : Settings} {nowInstant : Instant}
    {now : SystemTime} {faults : List (Option String)} :
    (live.saveSettings settings nowInstant now faults).2.tickDetails = ∅ ∨
      (live.saveSettings settings nowInstant now faults).2.tickDetails = live.tickDetails := by
  unfold LiveDb.saveSettings
  simp only
  split
  · exact Or.inl rfl
  · exact Or.inr rfl

theorem Watcher.Kept.next (hs : s.Kept) : (s.next flowId event).Kept := by
  cases event with
  | ingest input faults =>
    rcases next_ingest input faults with
      ⟨updated, -, -, -, hserved⟩ | ⟨hheld, hdetails, r, hreceived, -, hpatches⟩
    · exact hserved.kept hs
    · constructor
      · rw [hheld, hdetails]
        exact hs.sent
      · rw [hreceived]
        intro r' hr'
        rcases List.mem_append.mp hr' with hr' | hr'
        · exact hs.known r' hr'
        · obtain rfl := List.mem_singleton.mp hr'
          unfold Received.Known
          simp [hpatches]
  | clearHistory faults => exact ⟨sent_empty, hs.known⟩
  | saveSettings settings nowInstant now faults =>
    have hsent : Sent (s.live.saveSettings settings nowInstant now faults).2.tickDetails s.held := by
      rcases details_saveSettings with hnone | hsame
      · rw [hnone]
        exact sent_empty
      · rw [hsame]
        exact hs.sent
    exact ⟨hsent, hs.known⟩

/-- In every run, patches are of records that were sent in full. -/
theorem patches_known (hr : (watchers flowId fun _ _ => True).Reachable s) :
    ∀ r ∈ s.received, r.Known := by
  apply Watcher.Kept.known
  apply hr.invariant
  · rintro s ⟨hdetails, -, hreceived⟩
    exact ⟨hdetails ▸ sent_empty, by simp [hreceived]⟩
  · rintro s _ hs ⟨event, -, rfl⟩
    exact hs.next

/-- A tick under the condition leaves the receiver with the records that are stored. -/
theorem Watcher.Served.exact {s' : Watcher} {input : LiveInput} {updated : List FlowRecord}
    (h : s.Served flowId s' input updated) (hs : s.Kept)
    (hsteady : ∀ id record held, flowMoved flowId input.batch.flows id = true →
      nextRecord input.toIngestInput flowId s.live.db id = some record →
      record.row.state = .active →
      AList.lookup id s.live.tickDetails = some (flowDetailSignature (record.toDto input.rates)) →
      AList.lookup id s.held = some held → held.SameDetails (record.toDto input.rates))
    (hexact : ∀ r ∈ s.received, r.Exact) : ∀ r ∈ s'.received, r.Exact := by
  obtain ⟨r, hreceived, hbefore, hafter, hrates, htables, hheld, htick⟩ := h.delivery
  obtain ⟨overview, hreads⟩ := h.reads
  have hnodup : ((updated.map fun record => record.toDto input.rates).map FlowDto.id).Nodup := by
    rw [List.map_map]
    exact hreads.nodup
  have hdelivery := h.ticked.delivery htick hnodup hs.sent
  have hstored : ∀ flow ∈ (tickFlows flowId input.toIngestInput s.live.tickDetails updated).flows,
      ∃ record, record.toDto input.rates = flow ∧ recordOf r.tables flow.id = some record ∧
        nextRecord input.toIngestInput flowId s.live.db flow.id = some record := by
    intro flow hflow
    obtain ⟨record, hrecord, rfl⟩ := List.mem_map.mp (h.ticked.taken.subset hflow)
    rw [htables]
    exact ⟨record, rfl, hreads.stored record hrecord, hreads.next record hrecord⟩
  rw [hreceived]
  intro r' hr'
  rcases List.mem_append.mp hr' with hr' | hr'
  · exact hexact r' hr'
  obtain rfl := List.mem_singleton.mp hr'
  rintro id (hid | hid)
  · obtain ⟨flow, hflow, rfl⟩ := List.mem_map.mp hid
    rw [htick.flows, List.mem_filter, decide_eq_true_eq] at hflow
    obtain ⟨record, hdto, hrecord, -⟩ := hstored flow hflow.1
    refine ⟨record, hrecord, ?_⟩
    rw [hafter, hheld, hrates, hdto]
    exact hdelivery.full flow hflow.1 hflow.2
  · rw [htick.flowUpdates, List.map_map] at hid
    obtain ⟨flow, hflow, rfl⟩ := List.mem_map.mp hid
    rw [List.mem_filter, decide_eq_true_eq] at hflow
    obtain ⟨record, rfl, hrecord, hnext⟩ := hstored flow hflow.1
    obtain ⟨old, hsignature, hactive, hold, holdId, holdState, holdReason, hpatched⟩ :=
      hdelivery.patch _ hflow.1 hflow.2
    obtain ⟨other, -, -, hmoved, -⟩ := h.ticked.patched _ hflow.2
    obtain ⟨hrow, hreason⟩ := endReason_toDto hactive
    have hsame := hsteady _ record old hmoved hnext hrow hsignature hold
    have hmerged := FlowDto.merge_eq_iff.mpr ⟨holdId, holdState.trans hactive.symm,
      holdReason.trans hreason.symm, hsame⟩
    refine ⟨record, hrecord, ?_⟩
    rw [hafter, hheld, hrates]
    exact hpatched.trans (congrArg some hmerged)

/-- In every run in which nothing but counters and the time last seen changes under a signature, no
patch comes without its record, and what is held of the flows of a tick is what is stored. -/
theorem patches_lossless (hr : (watchers flowId (Steady flowId)).Reachable s) :
    ∀ r ∈ s.received, r.Known ∧ r.Exact := by
  have hinv : s.Kept ∧ ∀ r ∈ s.received, r.Exact := by
    apply hr.invariant (P := fun s => s.Kept ∧ ∀ r ∈ s.received, r.Exact)
    · rintro s ⟨hdetails, -, hreceived⟩
      exact ⟨⟨hdetails ▸ sent_empty, by simp [hreceived]⟩, by simp [hreceived]⟩
    · rintro s _ ⟨hs, hexact⟩ ⟨event, hsteady, rfl⟩
      refine ⟨hs.next, ?_⟩
      cases event with
      | ingest input faults =>
        rcases next_ingest input faults with
          ⟨updated, overview, c, hrun, hserved⟩ | ⟨-, -, r, hreceived, hflows, hpatches⟩
        · exact hserved.exact hs (hsteady ⟨_, _, hrun⟩) hexact
        · rw [hreceived]
          intro r' hr'
          rcases List.mem_append.mp hr' with hr' | hr'
          · exact hexact r' hr'
          · obtain rfl := List.mem_singleton.mp hr'
            unfold Received.Exact
            simp [hflows, hpatches]
      | clearHistory faults => exact hexact
      | saveSettings settings nowInstant now faults => exact hexact
  intro r hmem
  exact ⟨hinv.1.known r hmem, hinv.2 r hmem⟩

end Runs

/-! ## A flow that goes on -/

/-- A subscriber that has seen the first packets of a flow. -/
def firstPatched : Watcher :=
  ({ live := { db := TrafficDb.restart {} 65536 } } : Watcher).next (fun _ => 7)
    (.ingest { oneUpdate with sequence := 1 } [])

/-- More packets, seen within the same millisecond. -/
def morePackets : LiveInput where
  toIngestInput := lanInterval {} [lanUpdate ⟨3, 300⟩ ⟨6, 600⟩ .active]
  sequence := 2

/-- More packets, a second later. -/
def laterPackets : LiveInput where
  toIngestInput := {
    lanInterval {} [{ lanUpdate ⟨3, 300⟩ ⟨6, 600⟩ .active with lastSeen := 1000000005 }] with
    nowInstant := 1000000010
    nowSystem := 1700000001123456789 }
  sequence := 2

example : ((firstPatched.next (fun _ => 7) (.ingest morePackets [])).received.map fun r =>
    (r.tick.flows.map FlowDto.packets, r.tick.flowUpdates.map FlowPatchDto.packets)) =
    [([3], []), ([], [6])] := by
  decide +kernel

theorem patches_lossless_morePackets :
    (firstPatched.next (fun _ => 7) (.ingest morePackets [])).received.length = 2 ∧
    ∀ r ∈ (firstPatched.next (fun _ => 7) (.ingest morePackets [])).received,
      r.Known ∧ r.Exact := by
  have hfirst : Steady (fun _ => 7) { live := { db := TrafficDb.restart {} 65536 } }
      (.ingest { oneUpdate with sequence := 1 } []) := by
    intro _ id record held _ _ _ hsent _
    simp at hsent
  have hmore : Steady (fun _ => 7) firstPatched (.ingest morePackets []) := by
    intro _ id record held hmoved hnext _ _ hheld
    obtain rfl : id = 7 := by
      by_contra hne
      have hnone : AList.lookup id (flowDeltas (fun _ => 7) morePackets.batch.flows) = none :=
        (AList.lookup_insert_ne hne).trans (AList.lookup_empty id)
      unfold flowMoved at hmoved
      simp [hnone] at hmoved
    have hmerge : ∀ record ∈ nextRecord morePackets.toIngestInput (fun _ => 7)
        firstPatched.live.db 7, ∀ held ∈ AList.lookup 7 firstPatched.held,
        (FlowPatchDto.ofFlow (record.toDto ∅)).merge held = record.toDto ∅ := by
      decide +kernel
    exact (FlowDto.merge_eq_iff.mp (hmerge record hnext held hheld)).2.2.2
  constructor
  · decide +kernel
  · exact patches_lossless (.step (.step (.init ⟨rfl, rfl, rfl⟩)
      ⟨.ingest { oneUpdate with sequence := 1 } [], hfirst, rfl⟩)
      ⟨.ingest morePackets [], hmore, rfl⟩)

/-- The duration of a flow is not in its patches. -/
theorem patch_leaves_duration : ¬ ∀ s : Watcher,
    (watchers (fun _ => 7) fun _ _ => True).Reachable s → ∀ r ∈ s.received, r.Known ∧ r.Exact := by
  intro hall
  have hr : (watchers (fun _ => 7) fun _ _ => True).Reachable
      (firstPatched.next (fun _ => 7) (.ingest laterPackets [])) :=
    .step (.step (.init ⟨rfl, rfl, rfl⟩) ⟨_, trivial, rfl⟩) ⟨_, trivial, rfl⟩
  obtain ⟨r, hmem, hpatch, hduration⟩ : ∃ r ∈ (firstPatched.next (fun _ => 7)
      (.ingest laterPackets [])).received, 7 ∈ r.tick.flowUpdates.map FlowPatchDto.id ∧
        ((AList.lookup 7 r.after).map FlowDto.durationMs,
          (recordOf r.tables 7).map fun record => (record.toDto r.rates).durationMs) =
            (some 0, some 1000) := by
    decide +kernel
  obtain ⟨record, hstored, hheld⟩ := (hall _ hr r hmem).2 7 (Or.inr hpatch)
  rw [hstored, hheld] at hduration
  simp only [Option.map_some, Prod.mk.injEq, Option.some.injEq] at hduration
  omega

end ZimaScope
