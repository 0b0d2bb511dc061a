import ZimaScope.Api.Drafts
import ZimaScope.Collector.Apply

/-! # Enforcement state

The API's shared state as far as Traffic Rules go, the two lock sections of
`apply_policy` with the worker's part between them, and what the API reports
about a rule.
-/

namespace ZimaScope

/-- Last known Traffic Rule enforcement state. -/
structure PolicyRuntime where
  appliedRevision : ℕ := 0
  activeRules : ℕ := 0
  unresolved : HashMap UInt32 String := ∅
  lastError : Option String := none

/-- What the lock protects. -/
structure Inner where
  db : RuleDb := {}
  settings : Settings := {}
  settingsVersion : ℕ := 0
  policyHandle : Bool := false
  policy : PolicyRuntime := {}

/-- A compiled program with the rules that are not part of it. -/
structure Compiled where
  policy : CompiledPolicy
  unresolved : HashMap UInt32 String

def unresolvedMap (rules : List UnresolvedRule) : HashMap UInt32 String :=
  rules.foldl (fun m rule => m.insert rule.ruleId rule.reason) ∅

def ApiError.reason (e : ApiError) : String :=
  match e.status with
  | 404 => "Not Found"
  | 409 => "Conflict"
  | 422 => "Unprocessable Entity"
  | _ => "Internal Server Error"

def ApiError.display (e : ApiError) : String := s!"{e.status} {e.reason}: {e.detail}"

namespace Inner

/-- Runs a storage action of a lock section. -/
def run {α : Type} (inner : Inner) (faults : List (Option String)) (x : RuleDb.Action α) :
    Except ApiError α × Inner :=
  ((x ⟨inner.db, faults⟩).1, { inner with db := (x ⟨inner.db, faults⟩).2.store })

/-- The lock section of `apply_policy` that compiles the persisted rules. Only a missing
handle is recorded; a failed read or compilation returns early. -/
def compilePolicy (inner : Inner) (faults : List (Option String)) (evidence : Evidence) :
    Except String Compiled × Inner :=
  if inner.policyHandle = false then
    (.error "collector is not running",
      { inner with policy.lastError := some "collector is not running" })
  else
    let (records, inner) := inner.run faults RuleDb.listTrafficRules
    match records with
    | .error e => (.error e.display, inner)
    | .ok records =>
      match compile systemResolver evidence (records.map TrafficRuleRecord.rule)
          inner.db.rulesRevision inner.settings.trafficRules.enabled with
      | .error e => (.error e, inner)
      | .ok compiled => (.ok ⟨compiled.policy, unresolvedMap compiled.unresolved⟩, inner)

/-- The lock section of `apply_policy` that records the worker's answer. -/
def recordApply (inner : Inner) (unresolved : HashMap UInt32 String) :
    Except String ApplySummary → Inner
  | .ok summary =>
    { inner with
      policy := {
        appliedRevision := summary.revision
        activeRules := summary.rules
        unresolved
        lastError := none } }
  | .error error => { inner with policy.lastError := some error }

/-- Derived enforcement state for one rule. -/
def trafficRuleState (inner : Inner) (rule : TrafficRule) : String × Option String :=
  if inner.policyHandle = false then ("unavailable", some "collector is not running")
  else if inner.settings.trafficRules.enabled = false then
    ("bypassed", some "Traffic Rule enforcement is disabled")
  else if rule.enabled = false then ("bypassed", some "rule is disabled")
  else
    match AList.lookup rule.id inner.policy.unresolved with
    | some reason => ("unresolved", some reason)
    | none => ("active", none)

end Inner

structure TrafficRuleCountersDto where
  matchedPackets : ℕ
  matchedBytes : ℕ
  droppedPackets : ℕ
  droppedBytes : ℕ
  deriving DecidableEq, Repr

/-- One Traffic Rule as the API represents it. -/
structure TrafficRuleDto where
  id : UInt32
  action : String
  direction : String
  selector : Selector
  rateBytesPerS : ℕ
  burstBytes : ℕ
  enabled : Bool
  state : String
  stateReason : Option String
  createdAt : ℤ
  updatedAt : ℤ
  counters : Option TrafficRuleCountersDto
  deriving DecidableEq, Repr

def Inner.trafficRuleDto (inner : Inner) (record : TrafficRuleRecord) (counters : Option RuleState) :
    TrafficRuleDto where
  id := record.rule.id
  action := actionName record.rule.action.action
  direction := record.rule.direction.asStr
  selector := record.rule.selector
  rateBytesPerS := record.rule.action.rates.1
  burstBytes := record.rule.action.rates.2
  enabled := record.rule.enabled
  state := (inner.trafficRuleState record.rule).1
  stateReason := (inner.trafficRuleState record.rule).2
  createdAt := record.createdAt
  updatedAt := record.updatedAt
  counters := counters.map fun c =>
    ⟨c.matchedPackets, c.matchedBytes, c.droppedPackets, c.droppedBytes⟩

/-- A map call that fails inside a reconciliation: how many operations run before it,
and its error. -/
abbrev KernelFault := ℕ × ApplyError

/-- `CollectorCore::apply_policy` with a kernel that may fail at any operation. -/
def CollectorCore.applyPolicyWith (core : CollectorCore) (fault : Option KernelFault)
    (program : CompiledPolicy) : Except ApplyError ApplySummary × CollectorCore :=
  match fault with
  | none => core.applyPolicy program
  | some (n, error) =>
    match applyOps core.maps ((diff core.appliedPolicy program).take n) with
    | (.error e, maps) => (.error e, { core with maps })
    | (.ok (), maps) => (.error error, { core with maps })

def ApplyError.display (e : ApplyError) : String := s!"{e.context}: {repr e.error}"

/-- The worker's answer to one command. -/
def CollectorCore.answer (core : CollectorCore) (fault : Option KernelFault)
    (program : CompiledPolicy) : Except String ApplySummary × CollectorCore :=
  ((core.applyPolicyWith fault program).1.mapError ApplyError.display,
    (core.applyPolicyWith fault program).2)

/-- A program that was applied is what the worker holds; after an error it holds what it
held before. -/
theorem CollectorCore.answer_cases (core : CollectorCore) (fault : Option KernelFault)
    (program : CompiledPolicy) :
    (∃ operations, (core.answer fault program).1 =
        .ok ⟨program.revision, operations, program.rules.length⟩ ∧
      (core.answer fault program).2.appliedPolicy = program) ∨
    (∃ error, (core.answer fault program).1 = .error error ∧
      (core.answer fault program).2.appliedPolicy = core.appliedPolicy) := by
  unfold answer applyPolicyWith
  cases fault with
  | none =>
    simp only
    unfold applyPolicy
    simp only
    split
    · exact Or.inr ⟨_, rfl, rfl⟩
    · exact Or.inl ⟨_, rfl, rfl⟩
  | some fault =>
    simp only
    split
    · exact Or.inr ⟨_, rfl, rfl⟩
    · exact Or.inr ⟨_, rfl, rfl⟩

end ZimaScope
