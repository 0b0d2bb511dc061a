import Mathlib.Data.Finset.Card
import Mathlib.Data.List.FinRange
import ZimaScope.Ebpf.Maps
import ZimaScope.Query.Resolver

/-! # Compiling Traffic Rules

Persisted rules become the program the kernel maps accept: match entries for
every resolved target and direction, and one state per rule and direction.
Identity and validation problems leave a rule unresolved; a capacity overflow
fails the whole program.
-/

namespace ZimaScope

/-- Number of rules the kernel maps are compiled with. -/
def maxTrafficRules : ℕ := defaultTrafficRuleCapacity

def minRateBytesPerS : ℕ := 4096

def maxRateBytesPerS : ℕ := 10 * 1024 * 1024 * 1024

inductive RuleDirection | inbound | outbound | both
  deriving DecidableEq, Repr

/-- Kernel directions a rule expands into. -/
def RuleDirection.directions : RuleDirection → List Direction
  | .inbound => [.inbound]
  | .outbound => [.outbound]
  | .both => [.inbound, .outbound]

/-- What a rule does to matching traffic. -/
inductive ActionSpec
  | limit (rateBytesPerS burstBytes : ℕ)
  | block
  deriving DecidableEq, Repr

namespace ActionSpec

def action : ActionSpec → RuleAction
  | limit .. => .limit
  | block => .block

/-- The token bucket parameters, zero for actions that carry none. -/
def rates : ActionSpec → ℕ × ℕ
  | limit rate burst => (rate, burst)
  | block => (0, 0)

def validate : ActionSpec → Except String Unit
  | limit rate burst =>
    if ¬ (minRateBytesPerS ≤ rate ∧ rate ≤ maxRateBytesPerS) then
      .error (s!"limit rate must be between {minRateBytesPerS} and " ++
        s!"{maxRateBytesPerS} bytes per second")
    else if burst = 0 then .error "limit burst must be greater than zero"
    else .ok ()
  | block => .ok ()

end ActionSpec

/-- A persisted Traffic Rule in product terms. -/
structure TrafficRule where
  id : UInt32
  action : ActionSpec
  direction : RuleDirection
  selector : Selector
  enabled : Bool
  deriving DecidableEq, Repr

/-- A rule that could not be compiled into kernel state. -/
structure UnresolvedRule where
  ruleId : UInt32
  reason : String
  deriving DecidableEq, Repr

/-- One compiled match entry. -/
inductive MatchEntry
  | appCgroup (direction : Direction) (cgroupId : UInt64)
  | appComm (direction : Direction) (comm : Vector UInt8 16)
  | endpointExact (direction : Direction) (key : EndpointMatchKey)
  | endpointCidr (direction : Direction) (prefixLen : ℕ) (addr : Vector UInt8 4)
  deriving DecidableEq, Repr

/-- The kernel key an entry is stored under; host bits of a CIDR entry are not part of it. -/
def MatchEntry.key : MatchEntry → MatchKey
  | appCgroup d cgroupId => .appCgroup d cgroupId
  | appComm d comm => .appComm d comm
  | endpointExact d key => .endpointExact d key
  | endpointCidr d prefixLen addr => .endpointCidr d (lpmKey prefixLen addr)

/-- Token bucket parameters for one rule-direction pair. -/
structure CompiledState where
  key : BucketKey
  rateBytesPerS : ℕ
  burstBytes : ℕ
  deriving DecidableEq, Repr

/-- One rule in the shape the kernel maps accept. -/
structure CompiledRule where
  id : UInt32
  action : RuleAction
  matchEntries : List MatchEntry
  states : List CompiledState
  deriving DecidableEq, Repr

/-- Complete desired kernel policy state. -/
structure CompiledPolicy where
  revision : ℕ := 0
  enabled : Bool := false
  rules : List CompiledRule := []
  deriving DecidableEq, Repr, Inhabited

structure CompiledProgram where
  policy : CompiledPolicy
  unresolved : List UnresolvedRule
  deriving DecidableEq, Repr

/-- Validates one rule in product terms. -/
def validateRule (rule : TrafficRule) : Except String Unit := do
  rule.selector.validate
  match rule.selector.kernelPlan with
  | .unsupported reason => .error reason
  | _ => rule.action.validate

/-- The match entry of one target in one direction. -/
def targetEntry (direction : Direction) : MatchTarget → MatchEntry
  | .endpoint address port =>
    .endpointExact direction ⟨ipv4Storage address, (port.map toBe).getD 0⟩
  | .cidr address prefixLen => .endpointCidr direction prefixLen address.octets
  | .appCgroup cgroupId => .appCgroup direction cgroupId
  | .appComm comm => .appComm direction comm

def matchesFromTargets (targets : List MatchTarget) (direction : RuleDirection) :
    List MatchEntry :=
  direction.directions.flatMap fun d => targets.map (targetEntry d)

/-- One state per direction of the rule, all with the same parameters. -/
def compiledStates (id : UInt32) (direction : RuleDirection) (rates : ℕ × ℕ) :
    List CompiledState :=
  direction.directions.map fun d => ⟨⟨id, d.toU8⟩, rates.1, rates.2⟩

/-- A rule on resolved targets. -/
def CompiledRule.ofTargets (id : UInt32) (action : ActionSpec) (direction : RuleDirection)
    (targets : List MatchTarget) : CompiledRule where
  id := id
  action := action.action
  matchEntries := matchesFromTargets targets direction
  states := compiledStates id direction action.rates

section Compile

variable {σ : Type} (resolve : Resolver σ)

def compileRule (s : σ) (rule : TrafficRule) : Except String CompiledRule × σ :=
  match validateRule rule with
  | .error reason => (.error reason, s)
  | .ok () =>
    match resolve s rule.selector with
    | (.error reason, s) => (.error reason, s)
    | (.ok ⟨_, .unresolved reason⟩, s) => (.error reason, s)
    | (.ok ⟨targets, .complete⟩, s) =>
      (.ok (.ofTargets rule.id rule.action rule.direction targets), s)

/-- The loop over the enabled rules: compiled rules, unresolved rules, resolver state. -/
def compileRules (s : σ) : List TrafficRule → List CompiledRule × List UnresolvedRule × σ
  | [] => ([], [], s)
  | rule :: rules =>
    match compileRule resolve s rule with
    | (.ok compiled, s) =>
      let rest := compileRules s rules
      (compiled :: rest.1, rest.2)
    | (.error reason, s) =>
      let rest := compileRules s rules
      (rest.1, ⟨rule.id, reason⟩ :: rest.2.1, rest.2.2)

end Compile

def tierIndex : MatchEntry → Fin 8
  | .appCgroup .inbound _ => 0
  | .appCgroup .outbound _ => 1
  | .appComm .inbound _ => 2
  | .appComm .outbound _ => 3
  | .endpointExact .inbound _ => 4
  | .endpointExact .outbound _ => 5
  | .endpointCidr .inbound _ _ => 6
  | .endpointCidr .outbound _ _ => 7

@[simp] theorem tier_key (entry : MatchEntry) : entry.key.tier = tierIndex entry := by
  rcases entry with ⟨⟨⟩, _⟩ | ⟨⟨⟩, _⟩ | ⟨⟨⟩, _⟩ | ⟨⟨⟩, _, _⟩ <;> rfl

/-- The distinct entries of one tier. -/
def tierEntries (rules : List CompiledRule) (tier : Fin 8) : Finset MatchEntry :=
  ((rules.flatMap CompiledRule.matchEntries).filter fun entry => tierIndex entry = tier).toFinset

def checkCapacity (rules : List CompiledRule) : Except String Unit :=
  match (List.finRange 8).find? fun tier => maxTrafficRules < (tierEntries rules tier).card with
  | some overflow =>
    let entries := (tierEntries rules overflow).card
    .error (s!"match tier {overflow} holds {entries} entries, more than the " ++
      s!"{maxTrafficRules} kernel capacity")
  | none => .ok ()

/-- Compiles enabled rules into kernel state. -/
def compile {σ : Type} (resolve : Resolver σ) (s : σ) (rules : List TrafficRule) (revision : ℕ)
    (enabled : Bool) : Except String CompiledProgram :=
  let (compiled, unresolved, _) := compileRules resolve s (rules.filter TrafficRule.enabled)
  if maxTrafficRules < compiled.length then
    let count := compiled.length
    .error s!"{count} enabled rules exceed the {maxTrafficRules} rule capacity"
  else do
    checkCapacity compiled
    .ok ⟨⟨revision, enabled, compiled⟩, unresolved⟩

namespace CompiledRule

/-- The value every match entry of a rule is stored with. -/
def ruleRef (rule : CompiledRule) : RuleRef := ⟨rule.id, rule.action.toU8⟩

/-- A rule owns the kernel keys of its match entries. -/
def Owns (rule : CompiledRule) (k : MatchKey) : Prop := ∃ entry ∈ rule.matchEntries, entry.key = k

instance (rule : CompiledRule) (k : MatchKey) : Decidable (rule.Owns k) :=
  inferInstanceAs (Decidable (∃ entry ∈ rule.matchEntries, entry.key = k))

/-- The shape `compileRule` gives a rule: states and entries of the same directions. -/
def Expanded (rule : CompiledRule) : Prop :=
  ∃ (direction : RuleDirection) (rates : ℕ × ℕ),
    rule.states = compiledStates rule.id direction rates ∧
      ∀ entry ∈ rule.matchEntries, entry.key.direction ∈ direction.directions

end CompiledRule

/-- A program that passed `compile`, for rules with distinct ids. -/
structure CheckedPolicy extends CompiledPolicy where
  ids_nodup : (rules.map CompiledRule.id).Nodup
  rules_le : rules.length ≤ maxTrafficRules
  capacity : ∀ tier, (tierEntries rules tier).card ≤ maxTrafficRules
  expanded : ∀ rule ∈ rules, rule.Expanded

instance : Coe CheckedPolicy CompiledPolicy := ⟨CheckedPolicy.toCompiledPolicy⟩

/-- The policy the worker starts from. -/
def CheckedPolicy.initial : CheckedPolicy where
  rules := []
  ids_nodup := List.nodup_nil
  rules_le := Nat.zero_le _
  capacity _ := Nat.zero_le _
  expanded := by simp

@[simp] theorem CheckedPolicy.rules_initial : CheckedPolicy.initial.rules = [] := rfl

theorem direction_targetEntry (d : Direction) (target : MatchTarget) :
    (targetEntry d target).key.direction = d := by
  cases target <;> rfl

theorem CompiledRule.expanded_ofTargets (id : UInt32) (action : ActionSpec)
    (direction : RuleDirection) (targets : List MatchTarget) :
    (CompiledRule.ofTargets id action direction targets).Expanded := by
  refine ⟨direction, action.rates, rfl, fun entry he => ?_⟩
  simp only [ofTargets, matchesFromTargets, List.mem_flatMap, List.mem_map] at he
  obtain ⟨d, hd, target, _, rfl⟩ := he
  rwa [direction_targetEntry]

/-- A rule with its targets, as resolution hands it to the compiler. -/
structure ResolvedRule where
  id : UInt32
  action : ActionSpec
  direction : RuleDirection
  targets : List MatchTarget

/-- The enabled program of some resolved rules that passes the checks of `compile`. -/
def CheckedPolicy.ofResolved (rules : List ResolvedRule)
    (ids_nodup : (rules.map ResolvedRule.id).Nodup) (rules_le : rules.length ≤ maxTrafficRules)
    (capacity : ∀ tier, (tierEntries (rules.map fun r =>
      .ofTargets r.id r.action r.direction r.targets) tier).card ≤ maxTrafficRules) :
    CheckedPolicy where
  enabled := true
  rules := rules.map fun r => .ofTargets r.id r.action r.direction r.targets
  ids_nodup := by simpa [CompiledRule.ofTargets, Function.comp_def] using ids_nodup
  rules_le := by simpa using rules_le
  capacity := capacity
  expanded rule h := by
    obtain ⟨r, _, rfl⟩ := List.mem_map.mp h
    exact CompiledRule.expanded_ofTargets _ _ _ _

section Compile

variable {σ : Type} {resolve : Resolver σ}

theorem compileRule_ok {s s' : σ} {rule : TrafficRule} {compiled : CompiledRule}
    (h : compileRule resolve s rule = (.ok compiled, s')) :
    validateRule rule = .ok () ∧ ∃ targets,
      resolve s rule.selector = (.ok ⟨targets, .complete⟩, s') ∧
      compiled = .ofTargets rule.id rule.action rule.direction targets := by
  unfold compileRule at h
  split at h
  · simp at h
  · next hv =>
    split at h <;> simp only [Prod.mk.injEq, Except.ok.injEq, reduceCtorEq, false_and] at h
    next targets s'' hr =>
      obtain ⟨rfl, rfl⟩ := h
      exact ⟨hv, targets, hr, rfl⟩

theorem compileRules_sublist (s : σ) (rules : List TrafficRule) :
    ((compileRules resolve s rules).1.map CompiledRule.id).Sublist
      (rules.map TrafficRule.id) := by
  induction rules generalizing s with
  | nil => exact List.Sublist.slnil
  | cons rule rules ih =>
    unfold compileRules
    split
    · next compiled s' h =>
      obtain ⟨_, _, _, rfl⟩ := compileRule_ok h
      exact (ih s').cons_cons _
    · next s' _ => exact (ih s').cons _

theorem compileRules_expanded (s : σ) (rules : List TrafficRule) :
    ∀ rule ∈ (compileRules resolve s rules).1, rule.Expanded := by
  induction rules generalizing s with
  | nil => simp [compileRules]
  | cons rule rules ih =>
    unfold compileRules
    split
    · next compiled s' h =>
      intro r hr
      rcases List.mem_cons.mp hr with rfl | hr
      · obtain ⟨_, _, _, rfl⟩ := compileRule_ok h
        exact CompiledRule.expanded_ofTargets _ _ _ _
      · exact ih s' r hr
    · next s' _ => exact ih s'

theorem checkCapacity_ok {rules : List CompiledRule} :
    checkCapacity rules = .ok () ↔ ∀ tier, (tierEntries rules tier).card ≤ maxTrafficRules := by
  unfold checkCapacity
  split
  · next overflow h =>
    have ho := List.find?_some h
    simp only [reduceCtorEq, false_iff, not_forall, not_le]
    exact ⟨overflow, by simpa using ho⟩
  · next h =>
    simp only [List.find?_eq_none, List.mem_finRange, forall_const, decide_eq_true_eq, not_lt] at h
    exact iff_of_true rfl h

/-- What a successful compilation says about its program. -/
theorem compile_ok {s : σ} {rules : List TrafficRule} {revision : ℕ} {enabled : Bool}
    {program : CompiledProgram} (h : compile resolve s rules revision enabled = .ok program) :
    program = ⟨⟨revision, enabled, (compileRules resolve s (rules.filter TrafficRule.enabled)).1⟩,
        (compileRules resolve s (rules.filter TrafficRule.enabled)).2.1⟩ ∧
      program.policy.rules.length ≤ maxTrafficRules ∧
      ∀ tier, (tierEntries program.policy.rules tier).card ≤ maxTrafficRules := by
  unfold compile at h
  simp only at h
  split at h
  · simp at h
  · next hl =>
    cases hc : checkCapacity (compileRules resolve s (rules.filter TrafficRule.enabled)).1 with
    | error e => simp [hc, bind, Except.bind] at h
    | ok u =>
      simp only [hc, bind, Except.bind, Except.ok.injEq] at h
      subst h
      exact ⟨rfl, not_lt.mp hl, checkCapacity_ok.mp hc⟩

/-- Storage lists rules by primary key, so their ids are distinct and what they
compile to is a checked policy. -/
theorem exists_checkedPolicy_of_compile {s : σ} {rules : List TrafficRule} {revision : ℕ}
    {enabled : Bool} {program : CompiledProgram} (hids : (rules.map TrafficRule.id).Nodup)
    (h : compile resolve s rules revision enabled = .ok program) :
    ∃ checked : CheckedPolicy, checked.toCompiledPolicy = program.policy := by
  obtain ⟨rfl, hl, hc⟩ := compile_ok h
  have hsub : (rules.filter TrafficRule.enabled).map TrafficRule.id |>.Sublist
      (rules.map TrafficRule.id) := List.filter_sublist.map _
  refine ⟨⟨_, ?_, hl, hc, ?_⟩, rfl⟩
  · exact ((compileRules_sublist s _).trans hsub).nodup hids
  · exact compileRules_expanded s _

end Compile

end ZimaScope
