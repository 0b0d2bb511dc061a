import ZimaScope.Policy.Compile

/-! # Reconciling two programs

The ordered operation list between two compiled programs. Seen from the match
maps, and from the rule states, the list is a staged write log: one stage
retires the rules that are gone, and one stage follows for each rule of the
next program.
-/

namespace ZimaScope

open WriteLog

namespace CompiledPolicy

def rule (policy : CompiledPolicy) (id : UInt32) : Option CompiledRule :=
  policy.rules.find? fun rule => rule.id = id

def hasAppRules (policy : CompiledPolicy) : Bool :=
  policy.rules.any fun rule => rule.matchEntries.any fun
    | .appCgroup .. | .appComm .. => true
    | _ => false

def hasEndpointRules (policy : CompiledPolicy) : Bool :=
  policy.rules.any fun rule => rule.matchEntries.any fun
    | .endpointExact .. | .endpointCidr .. => true
    | _ => false

theorem mem_of_rule {policy : CompiledPolicy} {id : UInt32} {rule : CompiledRule}
    (h : policy.rule id = some rule) : rule ∈ policy.rules ∧ rule.id = id :=
  ⟨List.mem_of_find?_eq_some h, by simpa using List.find?_some h⟩

theorem rule_eq_none {policy : CompiledPolicy} {id : UInt32} :
    policy.rule id = none ↔ ∀ rule ∈ policy.rules, rule.id ≠ id := by
  simp [rule, List.find?_eq_none]

end CompiledPolicy

namespace CheckedPolicy

variable (policy : CheckedPolicy) {rule : CompiledRule}

theorem rule_eq_of_id {rule' : CompiledRule} (hr : rule ∈ policy.rules)
    (hr' : rule' ∈ policy.rules) (h : rule.id = rule'.id) : rule = rule' :=
  List.inj_on_of_nodup_map policy.ids_nodup hr hr' h

theorem rule_id (h : rule ∈ policy.rules) : policy.rule rule.id = some rule := by
  cases hr : policy.rule rule.id with
  | none => exact absurd rfl (CompiledPolicy.rule_eq_none.mp hr rule h)
  | some r =>
    obtain ⟨hm, hi⟩ := CompiledPolicy.mem_of_rule hr
    exact congrArg some (policy.rule_eq_of_id hm h hi)

end CheckedPolicy

/-- One ordered kernel-map operation. -/
inductive PolicyOp
  | setEnabled (enabled appRules endpointRules : Bool) (revision : UInt32)
  | upsertState (key : BucketKey) (rateBytesPerS burstBytes : ℕ)
  | removeState (key : BucketKey)
  | upsertMatch (entry : MatchEntry) (rule : RuleRef)
  | removeMatch (entry : MatchEntry)
  deriving DecidableEq, Repr

def CompiledPolicy.configOp (policy : CompiledPolicy) (enabled : Bool) : PolicyOp :=
  .setEnabled enabled policy.hasAppRules policy.hasEndpointRules
    (UInt32.ofNat (min policy.revision (2 ^ 32 - 1)))

/-- The configuration entry the kernel fast path reads. -/
def configValue (enabled appRules endpointRules : Bool) (revision : UInt32) : PolicyConfig :=
  ⟨enabled.toUInt8, appRules.toUInt8, endpointRules.toUInt8, revision⟩

namespace CompiledRule

def matchKeys (rule : CompiledRule) : List MatchKey := rule.matchEntries.map MatchEntry.key

def stateKeys (rule : CompiledRule) : List BucketKey := rule.states.map CompiledState.key

/-- The previous version of a rule holds the state with the same parameters. -/
def stateUnchanged (before : Option CompiledRule) (state : CompiledState) : Bool :=
  (before.bind fun previous => previous.states.find? fun s => s.key = state.key).any fun s =>
    s.rateBytesPerS = state.rateBytesPerS && s.burstBytes = state.burstBytes

/-- The previous version of a rule installed the entry with the same action. -/
def matchUnchanged (before : Option CompiledRule) (rule : CompiledRule) (entry : MatchEntry) :
    Bool :=
  before.any fun previous => previous.action = rule.action && entry ∈ previous.matchEntries

/-- The states reconciling a rule writes. -/
def changedStates (before : Option CompiledRule) (rule : CompiledRule) : List CompiledState :=
  rule.states.filter fun state => !stateUnchanged before state

/-- The entries reconciling a rule writes. -/
def installedEntries (before : Option CompiledRule) (rule : CompiledRule) : List MatchEntry :=
  rule.matchEntries.filter fun entry => !matchUnchanged before rule entry

/-- The entries reconciling a rule removes. -/
def droppedEntries : Option CompiledRule → CompiledRule → List MatchEntry
  | some before, rule => before.matchEntries.filter fun entry => entry ∉ rule.matchEntries
  | none, _ => []

def removeOps (rule : CompiledRule) : List PolicyOp :=
  rule.matchEntries.map .removeMatch ++ rule.stateKeys.map .removeState

def reconcileOps (before : Option CompiledRule) (rule : CompiledRule) : List PolicyOp :=
  (rule.changedStates before).map (fun s => .upsertState s.key s.rateBytesPerS s.burstBytes) ++
    (rule.installedEntries before).map (fun entry => .upsertMatch entry rule.ruleRef) ++
    (droppedEntries before rule).map .removeMatch

end CompiledRule

/-- The rules of the previous program whose id is gone. -/
def retiredRules (previous next : CompiledPolicy) : List CompiledRule :=
  previous.rules.filter fun rule => (next.rule rule.id).isNone

theorem mem_retiredRules {previous next : CompiledPolicy} {rule : CompiledRule} :
    rule ∈ retiredRules previous next ↔ rule ∈ previous.rules ∧ next.rule rule.id = none := by
  simp [retiredRules]

/-- Builds the ordered operation list between two programs. -/
def diff (previous next : CompiledPolicy) : List PolicyOp :=
  let disabling := previous.enabled && !next.enabled
  (if disabling then [next.configOp false] else []) ++
    (retiredRules previous next).flatMap CompiledRule.removeOps ++
    next.rules.flatMap (fun rule => rule.reconcileOps (previous.rule rule.id)) ++
    (if next.enabled || !disabling then [next.configOp next.enabled] else [])

section Views

/-- An operation as the match maps see it. -/
def PolicyOp.matchWrite : PolicyOp → Option (Write MatchKey RuleRef)
  | .upsertMatch entry rule => some (.put entry.key rule)
  | .removeMatch entry => some (.del entry.key)
  | _ => none

/-- An operation as the parameters of the rule states see it. -/
def PolicyOp.stateWrite : PolicyOp → Option (Write BucketKey (ℕ × ℕ))
  | .upsertState key rate burst => some (.put key (rate, burst))
  | .removeState key => some (.del key)
  | _ => none

def matchWrites (ops : List PolicyOp) : List (Write MatchKey RuleRef) :=
  ops.filterMap PolicyOp.matchWrite

def stateWrites (ops : List PolicyOp) : List (Write BucketKey (ℕ × ℕ)) :=
  ops.filterMap PolicyOp.stateWrite

/-- The keys a rule of the next program writes. -/
def installedKeys (previous : CompiledPolicy) (rule : CompiledRule) : List MatchKey :=
  (rule.installedEntries (previous.rule rule.id)).map MatchEntry.key

/-- The keys a rule of the next program removes. -/
def droppedKeys (previous : CompiledPolicy) (rule : CompiledRule) : List MatchKey :=
  (CompiledRule.droppedEntries (previous.rule rule.id) rule).map MatchEntry.key

def retiredKeys (previous next : CompiledPolicy) : List MatchKey :=
  (retiredRules previous next).flatMap CompiledRule.matchKeys

def retiredStateKeys (previous next : CompiledPolicy) : List BucketKey :=
  (retiredRules previous next).flatMap CompiledRule.stateKeys

/-- The state keys a rule of the next program writes. -/
def changedKeys (previous : CompiledPolicy) (rule : CompiledRule) : List BucketKey :=
  (rule.changedStates (previous.rule rule.id)).map CompiledState.key

def matchStage (previous : CompiledPolicy) (rule : CompiledRule) : Stage MatchKey RuleRef where
  puts := (installedKeys previous rule).map fun k => (k, rule.ruleRef)
  dels := droppedKeys previous rule

/-- The match writes of a diff, the retired rules first. -/
def matchStages (previous next : CompiledPolicy) : List (Stage MatchKey RuleRef) :=
  ⟨[], retiredKeys previous next⟩ :: next.rules.map (matchStage previous)

def stateStage (previous : CompiledPolicy) (rule : CompiledRule) :
    Stage BucketKey (ℕ × ℕ) where
  puts := (rule.changedStates (previous.rule rule.id)).map fun s =>
    (s.key, (s.rateBytesPerS, s.burstBytes))
  dels := []

/-- The state writes of a diff, the retired rules first. -/
def stateStages (previous next : CompiledPolicy) : List (Stage BucketKey (ℕ × ℕ)) :=
  ⟨[], retiredStateKeys previous next⟩ :: next.rules.map (stateStage previous)

@[simp] theorem putKeys_matchStage (previous : CompiledPolicy) (rule : CompiledRule) :
    (matchStage previous rule).putKeys = installedKeys previous rule := by
  simp [matchStage, Stage.putKeys, Function.comp_def]

@[simp] theorem putKeys_stateStage (previous : CompiledPolicy) (rule : CompiledRule) :
    (stateStage previous rule).putKeys = changedKeys previous rule := by
  simp [stateStage, Stage.putKeys, changedKeys, Function.comp_def]

@[simp] theorem matchWrites_append (ops ops' : List PolicyOp) :
    matchWrites (ops ++ ops') = matchWrites ops ++ matchWrites ops' := List.filterMap_append

@[simp] theorem stateWrites_append (ops ops' : List PolicyOp) :
    stateWrites (ops ++ ops') = stateWrites ops ++ stateWrites ops' := List.filterMap_append

theorem matchWrites_removeOps (rule : CompiledRule) :
    matchWrites rule.removeOps = rule.matchKeys.map .del := by
  simp [matchWrites, CompiledRule.removeOps, CompiledRule.matchKeys, List.filterMap_append,
    List.filterMap_map, Function.comp_def, PolicyOp.matchWrite]

theorem stateWrites_removeOps (rule : CompiledRule) :
    stateWrites rule.removeOps = rule.stateKeys.map .del := by
  simp [stateWrites, CompiledRule.removeOps, List.filterMap_append,
    List.filterMap_map, Function.comp_def, PolicyOp.stateWrite]

theorem matchWrites_reconcileOps (previous : CompiledPolicy) (rule : CompiledRule) :
    matchWrites (rule.reconcileOps (previous.rule rule.id)) = (matchStage previous rule).writes := by
  simp [matchWrites, CompiledRule.reconcileOps, matchStage, Stage.writes, installedKeys,
    droppedKeys, List.filterMap_append, List.filterMap_map, Function.comp_def,
    PolicyOp.matchWrite]

theorem stateWrites_reconcileOps (previous : CompiledPolicy) (rule : CompiledRule) :
    stateWrites (rule.reconcileOps (previous.rule rule.id)) = (stateStage previous rule).writes := by
  simp [stateWrites, CompiledRule.reconcileOps, stateStage, Stage.writes, List.filterMap_append,
    List.filterMap_map, Function.comp_def, PolicyOp.stateWrite]

theorem filterMap_ite_configOp {β : Type} (f : PolicyOp → Option β) (c : Prop) [Decidable c]
    (policy : CompiledPolicy) (enabled : Bool) (h : ∀ a b c r, f (.setEnabled a b c r) = none) :
    (if c then [policy.configOp enabled] else []).filterMap f = [] := by
  split <;> simp [CompiledPolicy.configOp, h]

/-- The match maps see a diff as the log of its match stages. -/
theorem matchWrites_diff (previous next : CompiledPolicy) :
    matchWrites (diff previous next) = log (matchStages previous next) := by
  have hc : ∀ (c : Prop) [Decidable c] (enabled : Bool),
      matchWrites (if c then [next.configOp enabled] else []) = [] := fun c _ enabled =>
    filterMap_ite_configOp _ c next enabled fun _ _ _ _ => rfl
  have hr : matchWrites ((retiredRules previous next).flatMap CompiledRule.removeOps) =
      (retiredKeys previous next).map .del := by
    simp only [matchWrites, List.filterMap_flatMap, retiredKeys, List.map_flatMap]
    exact congrArg (List.flatMap · _) (funext matchWrites_removeOps)
  have hn : matchWrites (next.rules.flatMap fun rule => rule.reconcileOps (previous.rule rule.id)) =
      log (next.rules.map (matchStage previous)) := by
    simp only [matchWrites, List.filterMap_flatMap, log, List.flatMap_map]
    exact congrArg (List.flatMap · _) (funext (matchWrites_reconcileOps previous))
  simp only [diff, matchWrites_append, hc, hr, hn, matchStages, log_cons, Stage.writes,
    List.map_nil, List.nil_append, List.append_nil]

/-- The rule states see a diff as the log of its state stages. -/
theorem stateWrites_diff (previous next : CompiledPolicy) :
    stateWrites (diff previous next) = log (stateStages previous next) := by
  have hc : ∀ (c : Prop) [Decidable c] (enabled : Bool),
      stateWrites (if c then [next.configOp enabled] else []) = [] := fun c _ enabled =>
    filterMap_ite_configOp _ c next enabled fun _ _ _ _ => rfl
  have hr : stateWrites ((retiredRules previous next).flatMap CompiledRule.removeOps) =
      (retiredStateKeys previous next).map .del := by
    simp only [stateWrites, List.filterMap_flatMap, retiredStateKeys, List.map_flatMap]
    exact congrArg (List.flatMap · _) (funext stateWrites_removeOps)
  have hn : stateWrites (next.rules.flatMap fun rule => rule.reconcileOps (previous.rule rule.id)) =
      log (next.rules.map (stateStage previous)) := by
    simp only [stateWrites, List.filterMap_flatMap, log, List.flatMap_map]
    exact congrArg (List.flatMap · _) (funext (stateWrites_reconcileOps previous))
  simp only [diff, stateWrites_append, hc, hr, hn, stateStages, log_cons, Stage.writes,
    List.map_nil, List.nil_append, List.append_nil]

end Views

end ZimaScope
