import ZimaScope.Api.Sections

/-! # Counters of Traffic Rules

What the list of rules and the detail of one rule show of the kernel's rule states.
-/

namespace ZimaScope

/-- `read_rule_states`. -/
def CollectorCore.readRuleStates (core : CollectorCore) (keys : List BucketKey) :
    List (Option RuleState) :=
  keys.map core.maps.states.lookup

/-- `rule_states` of the policy handle. A request fails when the worker is gone or a read does. -/
def CollectorCore.ruleStates (core : CollectorCore) (fault : Option String)
    (keys : List BucketKey) : Except String (List (Option RuleState)) :=
  match fault with
  | some error => .error error
  | none => .ok (core.readRuleStates keys)

def ruleBucketKeys (rule : TrafficRule) : List BucketKey :=
  rule.direction.directions.map fun direction => ⟨rule.id, direction.toU8⟩

namespace Inner

variable (inner later : Inner) (core : CollectorCore) (fault : Option String)

/-- The loop of `list_traffic_rules` from a position of the states on. -/
def ruleDtos (states : List (Option RuleState)) : ℕ → List TrafficRuleRecord → List TrafficRuleDto
  | _, [] => []
  | position, record :: records =>
    later.trafficRuleDto record (states[position]?.join) ::
      ruleDtos states (position + (ruleBucketKeys record.rule).length) records

/-- `list_traffic_rules`, which reads the rules in one lock section and answers in another. -/
def listTrafficRules (faults : List (Option String)) : Except ApiError (List TrafficRuleDto) := do
  let records ← (inner.run faults RuleDb.listTrafficRules).1
  let keys := records.flatMap fun record => ruleBucketKeys record.rule
  let states :=
    if inner.policyHandle ∧ keys ≠ [] then
      match core.ruleStates fault keys with
      | .ok states => states
      | .error _ => List.replicate keys.length none
    else []
  return later.ruleDtos states 0 records

def ruleCounters (rule : TrafficRule) : Option RuleState := do
  guard inner.policyHandle
  let states ← (core.ruleStates fault (ruleBucketKeys rule)).toOption
  states.reduceOption.head?

/-- `get_traffic_rule`, which looks for the handle in a lock section of its own. -/
def getTrafficRule (asked : Inner) (faults : List (Option String)) (id : UInt32) :
    Except ApiError TrafficRuleDto := do
  let record ← (inner.run faults (RuleDb.trafficRule id.toNat)).1
  return later.trafficRuleDto record (asked.ruleCounters core fault record.rule)

end Inner

/-! ## What the counters should be -/

/-- The state of a rule in one direction. -/
def CollectorCore.stateOf (core : CollectorCore) (rule : TrafficRule) (direction : Direction) :
    Option RuleState :=
  core.maps.states.lookup ⟨rule.id, direction.toU8⟩

/-- The states that exist for the keys of a rule. -/
def CollectorCore.ownStates (core : CollectorCore) (rule : TrafficRule) : List RuleState :=
  (ruleBucketKeys rule).filterMap core.maps.states.lookup

/-- The sums of the counters, if there is any state. -/
def sumCounters : List RuleState → Option TrafficRuleCountersDto
  | [] => none
  | states => some {
      matchedPackets := (states.map RuleState.matchedPackets).sum
      matchedBytes := (states.map RuleState.matchedBytes).sum
      droppedPackets := (states.map RuleState.droppedPackets).sum
      droppedBytes := (states.map RuleState.droppedBytes).sum }

/-- The counters of one state. -/
def RuleState.counters (state : RuleState) : TrafficRuleCountersDto :=
  ⟨state.matchedPackets, state.matchedBytes, state.droppedPackets, state.droppedBytes⟩

/-- No packet was counted. -/
def RuleState.Idle (state : RuleState) : Prop := state.counters = ⟨0, 0, 0, 0⟩

/-- Where a rule has a state, the kernel is asked and answers, and a rule for both directions has
one for inbound and counts nothing outbound. -/
def CollectorCore.OneSided (core : CollectorCore) (told : Prop) (rule : TrafficRule) : Prop :=
  core.ownStates rule ≠ [] → told ∧ (rule.direction = .both →
    (core.stateOf rule .inbound).isSome ∧ ∀ state ∈ core.stateOf rule .outbound, state.Idle)

section Positions

variable {inner later : Inner} {core : CollectorCore} {fault : Option String}

/-- The state of the first key of a rule. -/
def CollectorCore.firstState (core : CollectorCore) (rule : TrafficRule) : Option RuleState :=
  (ruleBucketKeys rule).head?.bind core.maps.states.lookup

theorem ruleBucketKeys_ne_nil (rule : TrafficRule) : ruleBucketKeys rule ≠ [] := by
  unfold ruleBucketKeys
  cases rule.direction <;> simp [RuleDirection.directions]

theorem getElem?_readRuleStates {before keys : List BucketKey} (rest : List BucketKey)
    (h : keys ≠ []) : (core.readRuleStates (before ++ (keys ++ rest)))[before.length]?.join =
      keys.head?.bind core.maps.states.lookup := by
  obtain ⟨key, keys, rfl⟩ := List.exists_cons_of_ne_nil h
  simp [CollectorCore.readRuleStates]

/-- What is found by its key is the record of a row. -/
theorem RuleDb.trafficRule_reads {id : ℕ} {c : Conn RuleDb} : Storage.wp (RuleDb.trafficRule id)
    (fun record _ => ∃ row ∈ c.store.trafficRules.rows, row.intoRecord = .ok record)
    (fun _ _ => True) c := by
  unfold RuleDb.trafficRule
  rw [Storage.wp_bind, Storage.wp_query]
  refine ⟨fun _ => ?_, fun _ _ => trivial⟩
  cases hfind : c.store.trafficRules.find id with
  | none => exact Storage.wp_ofExcept.mpr ⟨by simp, fun _ _ => trivial⟩
  | some row =>
    exact Storage.wp_ofExcept.mpr
      ⟨fun record hrecord => ⟨row, List.mem_of_find?_eq_some hfind, hrecord⟩, fun _ _ => trivial⟩

namespace Inner

/-- Every rule finds its own states where the loop looks for them. -/
theorem ruleDtos_readRuleStates (before : List BucketKey) (records : List TrafficRuleRecord) :
    later.ruleDtos (core.readRuleStates
        (before ++ records.flatMap fun record => ruleBucketKeys record.rule)) before.length records =
      records.map fun record => later.trafficRuleDto record (core.firstState record.rule) := by
  induction records generalizing before with
  | nil => rfl
  | cons record records ih =>
    have hrest := ih (before ++ ruleBucketKeys record.rule)
    rw [List.length_append, List.append_assoc] at hrest
    rw [List.flatMap_cons, ruleDtos, hrest, List.map_cons,
      getElem?_readRuleStates _ (ruleBucketKeys_ne_nil record.rule)]
    rfl

theorem ruleDtos_of_none {states : List (Option RuleState)} (h : ∀ i : ℕ, states[i]?.join = none)
    (position : ℕ) (records : List TrafficRuleRecord) :
    later.ruleDtos states position records =
      records.map fun record => later.trafficRuleDto record none := by
  induction records generalizing position with
  | nil => rfl
  | cons record records ih => rw [ruleDtos, ih, h, List.map_cons]

/-- The kernel is asked, and answers. -/
def Told (inner : Inner) (fault : Option String) : Prop := inner.policyHandle = true ∧ fault = none

instance : Decidable (inner.Told fault) := inferInstanceAs (Decidable (_ ∧ _))

theorem listTrafficRules_eq {faults : List (Option String)} {records : List TrafficRuleRecord}
    (h : (inner.run faults RuleDb.listTrafficRules).1 = .ok records) :
    inner.listTrafficRules later core fault faults = .ok (records.map fun record =>
      later.trafficRuleDto record (if inner.Told fault then core.firstState record.rule else none)) := by
  unfold listTrafficRules
  rw [h]
  refine congrArg Except.ok ?_
  by_cases hkeys : records.flatMap (fun record => ruleBucketKeys record.rule) = []
  · obtain rfl : records = [] := List.eq_nil_iff_forall_not_mem.mpr fun record hmem =>
      ruleBucketKeys_ne_nil record.rule (List.flatMap_eq_nil_iff.mp hkeys record hmem)
    rfl
  · by_cases htold : inner.Told fault
    · simp only [if_pos htold]
      obtain ⟨hhandle, rfl⟩ := htold
      rw [if_pos ⟨hhandle, hkeys⟩]
      exact ruleDtos_readRuleStates [] records
    · simp only [if_neg htold]
      refine ruleDtos_of_none (fun i => ?_) 0 records
      split
      · next hasked =>
        cases fault with
        | none => exact absurd ⟨hasked.1, rfl⟩ htold
        | some error =>
          rw [CollectorCore.ruleStates, List.getElem?_replicate]
          split <;> rfl
      · rfl

theorem ruleCounters_eq (rule : TrafficRule) :
    inner.ruleCounters core fault rule =
      if inner.Told fault then (core.ownStates rule).head? else none := by
  unfold ruleCounters
  by_cases htold : inner.Told fault
  · obtain ⟨hhandle, rfl⟩ := htold
    rw [if_pos ⟨hhandle, rfl⟩, guard, if_pos hhandle]
    change (core.readRuleStates (ruleBucketKeys rule)).reduceOption.head? = _
    change (List.filterMap id _).head? = _
    rw [CollectorCore.readRuleStates, List.filterMap_map]
    rfl
  · rw [if_neg htold]
    cases fault with
    | none =>
      have hhandle : ¬ inner.policyHandle = true := fun hhandle => htold ⟨hhandle, rfl⟩
      rw [guard, if_neg hhandle]
      rfl
    | some error => simp [CollectorCore.ruleStates, Except.toOption]

/-- What is found by its key is also listed. -/
theorem mem_of_trafficRule {faults faults' : List (Option String)} {records : List TrafficRuleRecord}
    {record : TrafficRuleRecord} {id : ℕ}
    (h : (inner.run faults RuleDb.listTrafficRules).1 = .ok records)
    (hid : (inner.run faults' (RuleDb.trafficRule id)).1 = .ok record) : record ∈ records := by
  obtain ⟨row, hrow, hrecord⟩ := Storage.wp_of_fst_eq_ok RuleDb.trafficRule_reads hid
  rw [run_listTrafficRules] at h
  split at h
  · simp at h
  · exact Except.mem_of_mapM h hrow hrecord

end Inner

end Positions

section Sums

variable {core : CollectorCore} {told : Prop} [Decidable told] {rule : TrafficRule}

theorem sumCounters_nil : sumCounters [] = none := rfl

theorem sumCounters_singleton (state : RuleState) : sumCounters [state] = some state.counters := by
  simp [sumCounters, RuleState.counters]

theorem sumCounters_pair {first second : RuleState} :
    some first.counters = sumCounters [first, second] ↔ second.Idle := by
  simp [sumCounters, RuleState.counters, RuleState.Idle]

theorem sumCounters_ne_none {states : List RuleState} (h : states ≠ []) :
    none ≠ sumCounters states := by
  cases states with
  | nil => exact absurd rfl h
  | cons first rest => simp [sumCounters]

theorem ownStates_eq :
    core.ownStates rule = rule.direction.directions.filterMap (core.stateOf rule) :=
  List.filterMap_map

theorem firstState_eq :
    core.firstState rule = rule.direction.directions.head?.bind (core.stateOf rule) := by
  unfold CollectorCore.firstState ruleBucketKeys
  cases rule.direction <;> rfl

theorem firstState_counters_iff :
    (if told then core.firstState rule else none).map RuleState.counters =
      sumCounters (core.ownStates rule) ↔ core.OneSided told rule := by
  unfold CollectorCore.OneSided
  by_cases htold : told
  · rw [firstState_eq, ownStates_eq, if_pos htold]
    cases rule.direction with
    | both =>
      simp only [RuleDirection.directions, List.filterMap_cons, List.filterMap_nil, List.head?_cons,
        Option.bind_some]
      cases core.stateOf rule .inbound with
      | none =>
        cases core.stateOf rule .outbound with
        | none => simp [sumCounters_nil]
        | some second => simp [sumCounters_singleton]
      | some first =>
        cases core.stateOf rule .outbound with
        | none => simp [sumCounters_singleton, htold]
        | some second => simp [sumCounters_pair, htold]
    | inbound =>
      cases hstate : core.stateOf rule .inbound <;>
        simp [RuleDirection.directions, hstate, sumCounters_singleton, sumCounters_nil, htold]
    | outbound =>
      cases hstate : core.stateOf rule .outbound <;>
        simp [RuleDirection.directions, hstate, sumCounters_singleton, sumCounters_nil, htold]
  · rw [if_neg htold, Option.map_none]
    constructor
    · intro hnone hne
      exact absurd hnone (sumCounters_ne_none hne)
    · intro hsided
      by_cases hown : core.ownStates rule = []
      · rw [hown, sumCounters_nil]
      · exact absurd (hsided hown).1 htold

/-- What the detail shows is what the list shows, or the only state of the rule. -/
theorem head_ownStates_eq (core : CollectorCore) (rule : TrafficRule) :
    (core.ownStates rule).head? = core.firstState rule ∨
    core.firstState rule = none := by
  rw [firstState_eq, ownStates_eq]
  cases rule.direction with
  | both =>
    cases hstate : core.stateOf rule .inbound <;> simp [RuleDirection.directions, hstate]
  | inbound =>
    cases hstate : core.stateOf rule .inbound <;> simp [RuleDirection.directions, hstate]
  | outbound =>
    cases hstate : core.stateOf rule .outbound <;> simp [RuleDirection.directions, hstate]

theorem head_ownStates_counters (h : core.OneSided told rule) :
    (if told then (core.ownStates rule).head? else none).map RuleState.counters =
      sumCounters (core.ownStates rule) := by
  have hlist := firstState_counters_iff.mpr h
  rcases head_ownStates_eq core rule with heq | hnone
  · rw [heq, hlist]
  · by_cases hown : core.ownStates rule = []
    · rw [hown, List.head?_nil, ite_self, Option.map_none, sumCounters_nil]
    · rw [hnone, ite_self, Option.map_none] at hlist
      exact absurd hlist (sumCounters_ne_none hown)

end Sums

/-- A state of the rule's own, if anything. -/
def CollectorCore.ShowsOwn (core : CollectorCore) (rule : TrafficRule) (dto : TrafficRuleDto) : Prop :=
  ∀ counters ∈ dto.counters, ∃ state ∈ core.ownStates rule, counters = state.counters

section Shown

variable {later : Inner} {core : CollectorCore} {told : Prop} [Decidable told]
  {record : TrafficRuleRecord}

theorem mem_ownStates_of_firstState {rule : TrafficRule} {state : RuleState}
    (h : core.firstState rule = some state) : state ∈ core.ownStates rule := by
  rcases head_ownStates_eq core rule with heq | hnone
  · exact List.mem_of_mem_head? (heq.trans h)
  · simp [hnone] at h

theorem showsOwn_of_mem {counters : Option RuleState}
    (h : ∀ state ∈ counters, state ∈ core.ownStates record.rule) :
    core.ShowsOwn record.rule (later.trafficRuleDto record counters) := by
  intro shown hshown
  obtain ⟨state, hstate, rfl⟩ := Option.mem_map.mp hshown
  exact ⟨state, h state hstate, rfl⟩

theorem getTrafficRule_eq {inner : Inner} {fault : Option String} {faults : List (Option String)}
    {id : UInt32} (h : (inner.run faults (RuleDb.trafficRule id.toNat)).1 = .ok record) :
    inner.getTrafficRule later core fault inner faults id = .ok (later.trafficRuleDto record
      (if inner.Told fault then (core.ownStates record.rule).head? else none)) := by
  unfold Inner.getTrafficRule
  rw [h, ← Inner.ruleCounters_eq]
  rfl

end Shown

/-- Both endpoints show one state of the rule at most, and the sums of its states exactly when
there is nothing more to add. -/
theorem counters_sum_iff (inner later : Inner) (core : CollectorCore) (fault : Option String)
    (faults : List (Option String)) (records : List TrafficRuleRecord)
    (h : (inner.run faults RuleDb.listTrafficRules).1 = .ok records) :
    ∃ listed, inner.listTrafficRules later core fault faults = .ok listed ∧
      List.Forall₂ (fun record dto => core.ShowsOwn record.rule dto) records listed ∧
      (∀ (id : UInt32) (record : TrafficRuleRecord),
        (inner.run faults (RuleDb.trafficRule id.toNat)).1 = .ok record →
          ∃ shown, inner.getTrafficRule later core fault inner faults id = .ok shown ∧
            core.ShowsOwn record.rule shown) ∧
      ((listed.map TrafficRuleDto.counters =
            records.map (fun record => sumCounters (core.ownStates record.rule)) ∧
          ∀ (id : UInt32) (record : TrafficRuleRecord),
            (inner.run faults (RuleDb.trafficRule id.toNat)).1 = .ok record →
              ∃ shown, inner.getTrafficRule later core fault inner faults id = .ok shown ∧
                shown.counters = sumCounters (core.ownStates record.rule)) ↔
        ∀ record ∈ records, core.OneSided (inner.Told fault) record.rule) := by
  refine ⟨_, Inner.listTrafficRules_eq h, ?_, fun id record hid => ⟨_, getTrafficRule_eq hid, ?_⟩, ?_⟩
  · rw [List.forall₂_map_right_iff]
    refine List.forall₂_same.mpr fun record _ => showsOwn_of_mem fun state hstate => ?_
    split at hstate
    · exact mem_ownStates_of_firstState hstate
    · simp at hstate
  · refine showsOwn_of_mem fun state hstate => ?_
    split at hstate
    · exact List.mem_of_mem_head? hstate
    · simp at hstate
  · constructor
    · rintro ⟨hlisted, -⟩ record hmem
      rw [List.map_map] at hlisted
      exact firstState_counters_iff.mp (List.map_inj_left.mp hlisted record hmem)
    · intro hsided
      refine ⟨?_, fun id record hid => ⟨_, getTrafficRule_eq hid, ?_⟩⟩
      · rw [List.map_map]
        exact List.map_congr_left fun record hmem => firstState_counters_iff.mpr (hsided record hmem)
      · exact head_ownStates_counters (hsided record (Inner.mem_of_trafficRule h hid))

/-- One rule blocks both directions. -/
def guarded : Inner where
  db.trafficRules := ({} : RuleTable).insert
    ⟨.block, .both, .endpoint (.v4 (.new 203 0 113 1)) none, true⟩ 0
  policyHandle := true

/-- Its states after one packet in and two out. -/
def counted : CollectorCore where
  maps := { PolicyMaps.empty with
    states := ((∅ : BpfMap BucketKey RuleState).insert ⟨1, Direction.inbound.toU8⟩
      { matchedPackets := 1, matchedBytes := 60, droppedPackets := 1, droppedBytes := 60 }).insert
        ⟨1, Direction.outbound.toU8⟩
        { matchedPackets := 2, matchedBytes := 120, droppedPackets := 2, droppedBytes := 120 } }
  appliedPolicy := {}

/-- Before the first packet nothing is missing. -/
theorem counters_sum_iff_guarded :
    ∃ listed, guarded.listTrafficRules guarded CollectorCore.start none [] = .ok listed ∧
      listed.map TrafficRuleDto.counters = [none] := by
  obtain ⟨listed, hlisted, -, -, hiff⟩ :=
    counters_sum_iff guarded guarded CollectorCore.start none [] _ rfl
  have hsided := hiff.mpr fun record _ hne => absurd (by decide +revert) hne
  exact ⟨listed, hlisted, hsided.1⟩

/-- The packets of one direction are missing in the list and in the detail. -/
theorem counters_of_one_direction :
    (guarded.listTrafficRules guarded counted none []).map (List.map TrafficRuleDto.counters) =
        .ok [some ⟨1, 60, 1, 60⟩] ∧
      (guarded.getTrafficRule guarded counted none guarded [] 1).map TrafficRuleDto.counters =
        .ok (some ⟨1, 60, 1, 60⟩) ∧
      (guarded.run [] RuleDb.listTrafficRules).1.map (List.map fun record =>
          sumCounters (counted.ownStates record.rule)) = .ok [some ⟨3, 180, 3, 180⟩] := by
  exact ⟨by decide, by decide, by decide⟩

end ZimaScope
