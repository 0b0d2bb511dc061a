import ZimaScope.Api.Sections
import ZimaScope.Policy.Meaning

/-! # The preflight

What the API says about a selector before a rule is created, against what creating the rule
compiles to. The preflight checks the selector's own targets, compilation those of all rules.
-/

namespace ZimaScope

/-- Wire name used by the preflight response. -/
def KernelPlan.name : KernelPlan → String
  | .direct => "direct"
  | .resolved .. => "resolved"
  | .unsupported _ => "unsupported"

structure ResolveTrafficRuleRequest where
  direction : String
  selector : Selector

structure ResolveTrafficRuleDto where
  plan : String
  targets : List MatchTarget
  coverage : String
  reason : Option String
  deriving DecidableEq, Repr

def checkCapacityTiers (unique : Fin 8 → Finset MatchEntry) : Except String Unit :=
  match (List.finRange 8).find? fun tier => maxTrafficRules < (unique tier).card with
  | some overflow =>
    let entries := (unique overflow).card
    .error (s!"match tier {overflow} holds {entries} entries, more than the " ++
      s!"{maxTrafficRules} kernel capacity")
  | none => .ok ()

/-- Checks that targets fit the kernel match map capacities. -/
def checkTargetCapacity (targets : List MatchTarget) (direction : RuleDirection) :
    Except String Unit :=
  checkCapacityTiers fun tier =>
    ((matchesFromTargets targets direction).filter fun entry => tierIndex entry = tier).toFinset

/-- A resolution that the packet path could not represent is reported as unresolved. -/
def preflightResolution (resolution : Resolution) (direction : RuleDirection) : Resolution :=
  match resolution.coverage with
  | .unresolved _ => resolution
  | .complete =>
    match checkTargetCapacity resolution.targets direction with
    | .error reason => ⟨[], .unresolved reason⟩
    | .ok () => resolution

/-- Reports what a selector would enforce before a rule is created. -/
def resolveTrafficRule (evidence : Evidence) (request : ResolveTrafficRuleRequest) :
    Except ApiError ResolveTrafficRuleDto := do
  let direction ← directionFromName request.direction
  request.selector.validate.mapError .unprocessable
  let plan := request.selector.kernelPlan
  match plan with
  | .unsupported reason => .error (.unprocessable reason)
  | _ =>
    let resolution := preflightResolution (evidence.resolve request.selector) direction
    let (coverage, reason) := match resolution.coverage with
      | .complete => ("complete", none)
      | .unresolved reason => ("unresolved", some reason)
    .ok ⟨plan.name, resolution.targets, coverage, reason⟩

/-! ## What it promises -/

section Promise

variable (inner : Inner) (compiled : Compiled) (evidence : Evidence) (now : ℤ)
  (create : CreateTrafficRuleRequest) (dto : ResolveTrafficRuleDto)

/-- The rule is created and the whole program compiles: with exactly the targets for the rule where
the answer was complete, and without it where it was unresolved. -/
def PreflightKept : Prop :=
  ∃ record inner' compiled', inner.serve { now, evidence } (.create create) =
      (.ok (.created record), inner') ∧
    inner'.compilePolicy [] evidence = (.ok compiled', inner') ∧
    (dto.coverage = "complete" → compiled'.policy.rules = compiled.policy.rules ++
      [.ofTargets record.rule.id record.rule.action record.rule.direction dto.targets]) ∧
    (dto.coverage = "unresolved" → compiled'.policy.rules = compiled.policy.rules ∧
      ∃ reason, AList.lookup record.rule.id compiled'.unresolved = some reason ∧
        (inner.settings.trafficRules.enabled = true → ∀ summary,
          (inner'.recordApply compiled'.unresolved (.ok summary)).trafficRuleState record.rule =
            ("unresolved", some reason)))

/-- One more rule may be stored, and if the selector resolves, every tier still has room for its
entries beside those of the program. -/
def HasRoom (direction : RuleDirection) : Prop :=
  inner.db.trafficRules.rows.length < maxTrafficRules ∧
    ((evidence.resolve create.selector).coverage = .complete → ∀ tier, (tierEntries
      (compiled.policy.rules ++ [.ofTargets 0 .block direction
        (evidence.resolve create.selector).targets]) tier).card ≤ maxTrafficRules)

end Promise

/-! ## Creating a rule -/

section Create

variable {inner : Inner} {evidence : Evidence} {now : ℤ} {draft : TrafficRuleDraft}

/-- The row and the record of a new rule. -/
def newRecord (inner : Inner) (draft : TrafficRuleDraft) (now : ℤ) : TrafficRuleRecord where
  rule := ⟨.ofNat inner.db.trafficRules.nextId, draft.action, draft.direction, draft.selector,
    draft.enabled⟩
  createdAt := unixMillisTime now
  updatedAt := unixMillisTime now

/-- The storage with the new rule. -/
def withRule (inner : Inner) (draft : TrafficRuleDraft) (now : ℤ) : Inner :=
  { inner with db := { inner.db with
      trafficRules := inner.db.trafficRules.insert draft now
      rulesRevision := inner.db.rulesRevision + 1 } }

theorem createRule_ok (hdraft : draft.Valid) {records : List TrafficRuleRecord}
    (hrecords : inner.db.trafficRules.rows.mapM RawTrafficRule.intoRecord = .ok records) :
    inner.createRule { now, evidence } draft =
      if maxTrafficRules ≤ records.length then
        (.error (.conflict s!"at most {maxTrafficRules} Traffic Rules are supported"), inner)
      else (.ok (newRecord inner draft now), withRule inner draft now) := by
  have hlist : RuleDb.listTrafficRules ⟨inner.db, []⟩ = (.ok records, ⟨inner.db, []⟩) := by
    rw [← hrecords]
    rfl
  have hinsert : RuleDb.insertTrafficRule draft now ⟨inner.db, []⟩ =
      (.ok (newRecord inner draft now), ⟨(withRule inner draft now).db, []⟩) := by
    have hread : RuleDb.trafficRule inner.db.trafficRules.nextId ⟨(withRule inner draft now).db, []⟩ =
        (.ok (newRecord inner draft now), ⟨(withRule inner draft now).db, []⟩) := by
      unfold RuleDb.trafficRule
      simp only [Storage.bind_apply, Storage.query, Storage.statement, List.headD_nil, List.tail_nil]
      have hfind : (withRule inner draft now).db.trafficRules.find inner.db.trafficRules.nextId =
        some (draft.newRow inner.db.trafficRules.nextId now) := RuleTable.find_insert
      rw [hfind]
      exact Prod.ext (intoRecord_writeTo hdraft now _) rfl
    exact hread
  unfold Inner.createRule Inner.run
  rw [Storage.bind_of_ok hlist]
  by_cases hfull : maxTrafficRules ≤ records.length
  · rw [if_pos hfull, if_pos hfull]
    rfl
  · rw [if_neg hfull, if_neg hfull, hinsert]
    rfl

/-- What compiling the persisted rules does when no statement fails. -/
theorem compilePolicy_of_records {records : List TrafficRuleRecord}
    (hrecords : inner.db.trafficRules.rows.mapM RawTrafficRule.intoRecord = .ok records)
    (hhandle : inner.policyHandle = true) :
    inner.compilePolicy [] evidence =
      match compile systemResolver evidence (records.map TrafficRuleRecord.rule)
          inner.db.rulesRevision inner.settings.trafficRules.enabled with
      | .error e => (.error e, inner)
      | .ok program => (.ok ⟨program.policy, unresolvedMap program.unresolved⟩, inner) := by
  have hnone : ¬ inner.policyHandle = false := by
    rw [Bool.not_eq_false]
    exact hhandle
  unfold Inner.compilePolicy
  cases hcompile : compile systemResolver evidence (records.map TrafficRuleRecord.rule)
      inner.db.rulesRevision inner.settings.trafficRules.enabled with
  | error e =>
    rw [if_neg hnone, Inner.run_listTrafficRules, List.headD_nil, hrecords]
    simp only [hcompile]
  | ok program =>
    rw [if_neg hnone, Inner.run_listTrafficRules, List.headD_nil, hrecords]
    simp only [hcompile]

/-- The next compilation finds the new rule behind the others. -/
theorem compilePolicy_withRule (hdraft : draft.Valid) {records : List TrafficRuleRecord}
    (hrecords : inner.db.trafficRules.rows.mapM RawTrafficRule.intoRecord = .ok records)
    (hhandle : inner.policyHandle = true) :
    (withRule inner draft now).compilePolicy [] evidence =
      match compile systemResolver evidence (records.map TrafficRuleRecord.rule ++
          [(newRecord inner draft now).rule]) (inner.db.rulesRevision + 1)
          inner.settings.trafficRules.enabled with
      | .error e => (.error e, withRule inner draft now)
      | .ok program => (.ok ⟨program.policy, unresolvedMap program.unresolved⟩,
          withRule inner draft now) := by
  have hrow : (draft.newRow inner.db.trafficRules.nextId now).intoRecord =
      .ok (newRecord inner draft now) := intoRecord_writeTo hdraft now _
  have hrows : (withRule inner draft now).db.trafficRules.rows.mapM RawTrafficRule.intoRecord =
      .ok (records ++ [newRecord inner draft now]) := by
    change (inner.db.trafficRules.rows ++ [draft.newRow inner.db.trafficRules.nextId now]).mapM _ = _
    rw [List.mapM_append, hrecords, List.mapM_cons, hrow]
    rfl
  rw [compilePolicy_of_records hrows hhandle, List.map_append]
  rfl

end Create

/-! ## Compiling one more rule -/

section Compile

variable {evidence : Evidence} {rules more : List TrafficRule}

theorem compileRules_append : compileRules systemResolver evidence (rules ++ more) =
    ((compileRules systemResolver evidence rules).1 ++ (compileRules systemResolver evidence more).1,
      (compileRules systemResolver evidence rules).2.1 ++
        (compileRules systemResolver evidence more).2.1, evidence) := by
  have hstate : ∀ rules, (compileRules systemResolver evidence rules).2.2 = evidence := by
    intro rules
    induction rules with
    | nil => rfl
    | cons rule rules ih =>
      obtain ⟨result, hrule, ⟨-, rfl⟩ | ⟨-, reason, rfl⟩⟩ := compileRule_systemResolver evidence rule
      · simp [compileRules, hrule, ih]
      · simp [compileRules, hrule, ih]
  induction rules with
  | nil =>
    rw [List.nil_append]
    exact Prod.ext rfl (Prod.ext rfl (hstate more))
  | cons rule rules ih =>
    obtain ⟨result, hrule, ⟨-, rfl⟩ | ⟨-, reason, rfl⟩⟩ := compileRule_systemResolver evidence rule
    · simp [compileRules, hrule, ih]
    · simp [compileRules, hrule, ih]

/-- When a program compiles, and what to. -/
theorem compile_eq_ok_iff {revision : ℕ} {enabled : Bool} {program : CompiledProgram} :
    compile systemResolver evidence rules revision enabled = .ok program ↔
      program = ⟨⟨revision, enabled,
          (compileRules systemResolver evidence (rules.filter TrafficRule.enabled)).1⟩,
        (compileRules systemResolver evidence (rules.filter TrafficRule.enabled)).2.1⟩ ∧
      program.policy.rules.length ≤ maxTrafficRules ∧
      ∀ tier, (tierEntries program.policy.rules tier).card ≤ maxTrafficRules := by
  constructor
  · exact compile_ok
  · rintro ⟨rfl, hlength, hcapacity⟩
    unfold compile
    simp only
    rw [if_neg (not_lt.mpr hlength), checkCapacity_ok.mpr hcapacity]
    rfl

theorem length_compileRules_le : (compileRules systemResolver evidence rules).1.length ≤ rules.length := by
  rw [compileRules_systemResolver, List.length_map]
  exact List.length_filter_le _ _

theorem lookup_last_unresolved (unresolved : List UnresolvedRule) (rule : UnresolvedRule) :
    AList.lookup rule.ruleId (unresolvedMap (unresolved ++ [rule])) = some rule.reason := by
  unfold unresolvedMap
  rw [List.foldl_append]
  exact AList.lookup_insert _

theorem checkTargetCapacity_ok {targets : List MatchTarget} {direction : RuleDirection} :
    checkTargetCapacity targets direction = .ok () ↔
      ∀ tier, (tierEntries [.ofTargets 0 .block direction targets] tier).card ≤ maxTrafficRules := by
  rw [← checkCapacity_ok]
  unfold checkCapacity checkTargetCapacity checkCapacityTiers tierEntries
  simp only [List.flatMap_cons, List.flatMap_nil, List.append_nil]
  rfl

end Compile

/-! ## The answer and the program -/

section Answer

variable {inner : Inner} {compiled : Compiled} {evidence : Evidence} {now : ℤ}
  {create : CreateTrafficRuleRequest} {draft : TrafficRuleDraft} {request : ResolveTrafficRuleRequest}
  {dto : ResolveTrafficRuleDto}

theorem resolveTrafficRule_ok (h : resolveTrafficRule evidence request = .ok dto) :
    ∃ direction, directionFromName request.direction = .ok direction ∧
      dto.targets = (preflightResolution (evidence.resolve request.selector) direction).targets ∧
      dto.coverage =
        match (preflightResolution (evidence.resolve request.selector) direction).coverage with
        | .complete => "complete"
        | .unresolved _ => "unresolved" := by
  unfold resolveTrafficRule at h
  obtain ⟨direction, hdirection, h⟩ := Except.bind_eq_ok.mp h
  obtain ⟨_, -, h⟩ := Except.bind_eq_ok.mp h
  refine ⟨direction, hdirection, ?_⟩
  generalize preflightResolution (evidence.resolve request.selector) direction = resolution at h
  simp only at h
  split at h
  · cases h
  · obtain rfl := Except.ok.inj h
    refine ⟨rfl, ?_⟩
    cases resolution.coverage <;> rfl

theorem draftFromCreate_ok (h : draftFromCreate create = .ok draft) :
    directionFromName create.direction = .ok draft.direction ∧ draft.selector = create.selector := by
  unfold draftFromCreate at h
  obtain ⟨kind, -, h⟩ := Except.bind_eq_ok.mp h
  obtain ⟨direction, hdirection, h⟩ := Except.bind_eq_ok.mp h
  obtain ⟨action, -, h⟩ := Except.bind_eq_ok.mp h
  obtain ⟨_, -, h⟩ := Except.bind_eq_ok.mp h
  obtain rfl := Except.ok.inj h
  exact ⟨hdirection, rfl⟩

/-- What the new rule compiles to, by what its selector resolves to. -/
theorem compileRule_newRecord (hdraft : draft.Valid) :
    compileRule systemResolver evidence (newRecord inner draft now).rule =
      (match (evidence.resolve draft.selector).coverage with
        | .complete => .ok (.ofTargets (newRecord inner draft now).rule.id draft.action draft.direction
            (evidence.resolve draft.selector).targets)
        | .unresolved reason => .error reason, evidence) := by
  have hvalid : validateRule (newRecord inner draft now).rule = .ok () := by
    have hok := hdraft.ok
    unfold validateDraft at hok
    cases hrule : validateRule ⟨0, draft.action, draft.direction, draft.selector, draft.enabled⟩ with
    | error reason =>
      rw [hrule] at hok
      cases hok
    | ok => exact hrule
  unfold compileRule
  rw [hvalid]
  simp only [systemResolver, newRecord]
  cases hresolve : evidence.resolve draft.selector with
  | mk targets coverage => cases coverage <;> rfl

/-- The rules with the new one compile to those without it and what its selector resolves to. -/
theorem compileRules_newRecord (hdraft : draft.Valid) (henabled : draft.enabled = true)
    (rules : List TrafficRule) :
    compileRules systemResolver evidence
        ((rules ++ [(newRecord inner draft now).rule]).filter TrafficRule.enabled) =
      let before := compileRules systemResolver evidence (rules.filter TrafficRule.enabled)
      let rule := (newRecord inner draft now).rule
      match (evidence.resolve draft.selector).coverage with
      | .complete => (before.1 ++ [.ofTargets rule.id draft.action draft.direction
          (evidence.resolve draft.selector).targets], before.2.1, evidence)
      | .unresolved reason => (before.1, before.2.1 ++ [⟨rule.id, reason⟩], evidence) := by
  have hfilter : [(newRecord inner draft now).rule].filter TrafficRule.enabled =
      [(newRecord inner draft now).rule] := List.filter_cons_of_pos henabled
  rw [List.filter_append, hfilter, compileRules_append]
  simp only [compileRules, compileRule_newRecord hdraft]
  cases (evidence.resolve draft.selector).coverage <;> simp

/-- Whose rule the entries are of does not matter for the room they take. -/
theorem tierEntries_append_ofTargets (rules : List CompiledRule) (id : UInt32) (action : ActionSpec)
    (direction : RuleDirection) (targets : List MatchTarget) (tier : Fin 8) :
    tierEntries (rules ++ [.ofTargets id action direction targets]) tier =
      tierEntries (rules ++ [.ofTargets 0 .block direction targets]) tier := by
  unfold tierEntries
  rw [List.flatMap_append, List.flatMap_append]
  rfl

theorem tierEntries_le_append (rules more : List CompiledRule) (tier : Fin 8) :
    (tierEntries more tier).card ≤ (tierEntries (rules ++ more) tier).card := by
  apply Finset.card_le_card
  intro entry hentry
  simp only [tierEntries, List.mem_toFinset, List.mem_filter, List.flatMap_append,
    List.mem_append] at hentry ⊢
  exact ⟨Or.inr hentry.1, hentry.2⟩

/-- Targets that overflow a tier by themselves overflow it with other rules. -/
theorem exists_tier_overflow {targets : List MatchTarget} {direction : RuleDirection}
    {reason : String} (h : checkTargetCapacity targets direction = .error reason)
    (rules : List CompiledRule) (id : UInt32) (action : ActionSpec) :
    ¬ ∀ tier, (tierEntries (rules ++ [.ofTargets id action direction targets]) tier).card ≤
      maxTrafficRules := by
  intro hroomy
  have hok : checkTargetCapacity targets direction = .ok () := by
    refine checkTargetCapacity_ok.mpr fun tier => ?_
    have hunion := hroomy tier
    rw [tierEntries_append_ofTargets] at hunion
    exact (tierEntries_le_append _ _ tier).trans hunion
  rw [h] at hok
  cases hok

/-- One more rule compiles to one more at most. -/
theorem length_compileRules_lt {rules : List TrafficRule} (h : rules.length < maxTrafficRules) :
    (compileRules systemResolver evidence (rules.filter TrafficRule.enabled)).1.length + 1 ≤
      maxTrafficRules := by
  have hcompiled : (compileRules systemResolver evidence
      (rules.filter TrafficRule.enabled)).1.length ≤ _ := length_compileRules_le
  have hfilter := List.length_filter_le TrafficRule.enabled rules
  omega

theorem length_of_mapM {rows : List RawTrafficRule} {records : List TrafficRuleRecord}
    (h : rows.mapM RawTrafficRule.intoRecord = .ok records) : rows.length = records.length := by
  induction rows generalizing records with
  | nil =>
    obtain rfl := Except.ok.inj h
    rfl
  | cons row rows ih =>
    rw [List.mapM_cons] at h
    obtain ⟨record, -, h⟩ := Except.bind_eq_ok.mp h
    obtain ⟨rest, hrest, h⟩ := Except.bind_eq_ok.mp h
    obtain rfl := Except.ok.inj h
    rw [List.length_cons, List.length_cons, ih hrest]

/-- What the request to create the rule does. -/
theorem serve_create (hcreate : draftFromCreate create = .ok draft)
    {records : List TrafficRuleRecord}
    (hrecords : inner.db.trafficRules.rows.mapM RawTrafficRule.intoRecord = .ok records) :
    inner.serve { now, evidence } (.create create) =
      if maxTrafficRules ≤ records.length then
        (.error (.conflict s!"at most {maxTrafficRules} Traffic Rules are supported"), inner)
      else (.ok (.created (newRecord inner draft now)), withRule inner draft now) := by
  unfold Inner.serve
  simp only [hcreate]
  rw [createRule_ok (draftFromCreate_valid hcreate) hrecords]
  split <;> rfl

/-- Creating the rule and compiling, by what the new program is. -/
theorem preflightKept_iff_compile (hcreate : draftFromCreate create = .ok draft)
    {records : List TrafficRuleRecord}
    (hrecords : inner.db.trafficRules.rows.mapM RawTrafficRule.intoRecord = .ok records)
    (hhandle : inner.policyHandle = true) :
    PreflightKept inner compiled evidence now create dto ↔
      records.length < maxTrafficRules ∧ ∃ program, compile systemResolver evidence
          (records.map TrafficRuleRecord.rule ++ [(newRecord inner draft now).rule])
          (inner.db.rulesRevision + 1) inner.settings.trafficRules.enabled = .ok program ∧
        (dto.coverage = "complete" → program.policy.rules = compiled.policy.rules ++
          [.ofTargets (newRecord inner draft now).rule.id draft.action draft.direction dto.targets]) ∧
        (dto.coverage = "unresolved" → program.policy.rules = compiled.policy.rules ∧
          ∃ reason, AList.lookup (newRecord inner draft now).rule.id
              (unresolvedMap program.unresolved) = some reason ∧
            (inner.settings.trafficRules.enabled = true → ∀ summary,
              ((withRule inner draft now).recordApply (unresolvedMap program.unresolved)
                (.ok summary)).trafficRuleState (newRecord inner draft now).rule =
                  ("unresolved", some reason))) := by
  have hvalid := draftFromCreate_valid hcreate
  unfold PreflightKept
  rw [serve_create hcreate hrecords]
  constructor
  · rintro ⟨record, inner', compiled', hserve, hcompile, hpromise⟩
    split at hserve
    · simp at hserve
    · next hroom =>
      simp only [Prod.mk.injEq, Except.ok.injEq, Answer.created.injEq] at hserve
      obtain ⟨rfl, rfl⟩ := hserve
      rw [compilePolicy_withRule hvalid hrecords hhandle] at hcompile
      refine ⟨not_le.mp hroom, ?_⟩
      split at hcompile
      · simp at hcompile
      · next program hprogram =>
        simp only [Prod.mk.injEq, Except.ok.injEq, and_true] at hcompile
        obtain rfl := hcompile
        exact ⟨program, hprogram, hpromise⟩
  · rintro ⟨hroom, program, hprogram, hpromise⟩
    refine ⟨newRecord inner draft now, withRule inner draft now,
      ⟨program.policy, unresolvedMap program.unresolved⟩, ?_, ?_, hpromise⟩
    · rw [if_neg (not_le.mpr hroom)]
    · rw [compilePolicy_withRule hvalid hrecords hhandle, hprogram]

/-- An unresolved rule is reported as such once the program is applied. -/
theorem trafficRuleState_unresolved (hhandle : inner.policyHandle = true)
    (hmaster : inner.settings.trafficRules.enabled = true) (henabled : draft.enabled = true)
    {unresolved : HashMap UInt32 String} {reason : String}
    (hlookup : AList.lookup (newRecord inner draft now).rule.id unresolved = some reason)
    (summary : ApplySummary) :
    ((withRule inner draft now).recordApply unresolved (.ok summary)).trafficRuleState
      (newRecord inner draft now).rule = ("unresolved", some reason) := by
  unfold Inner.trafficRuleState Inner.recordApply
  simp only [withRule, hhandle, hmaster, hlookup]
  simp [newRecord, henabled]

/-- After an answer, creating the rule does what the answer says if and only if there is room for
it. -/
theorem preflight_kept_iff (hcompiled : inner.compilePolicy [] evidence = (.ok compiled, inner))
    (hanswer : resolveTrafficRule evidence request = .ok dto)
    (hselector : create.selector = request.selector)
    (hdirection : create.direction = request.direction)
    (hcreate : draftFromCreate create = .ok draft) (henabled : draft.enabled = true) :
    PreflightKept inner compiled evidence now create dto ↔
      HasRoom inner compiled evidence create draft.direction := by
  obtain ⟨-, hhandle, records, before, hrecords, hbefore, rfl⟩ := Inner.compilePolicy_ok hcompiled
  obtain ⟨rfl, -, hcapacity⟩ := compile_eq_ok_iff.mp hbefore
  obtain ⟨hname, hdraftSelector⟩ := draftFromCreate_ok hcreate
  obtain ⟨direction, hname', htargets, hcoverage⟩ := resolveTrafficRule_ok hanswer
  rw [← hdirection, hname] at hname'
  obtain rfl := Except.ok.inj hname'
  rw [← hselector, ← hdraftSelector] at htargets hcoverage
  rw [preflightKept_iff_compile hcreate hrecords hhandle]
  unfold HasRoom
  rw [length_of_mapM hrecords, ← hdraftSelector]
  apply and_congr_right
  intro hroom
  have hlength := @length_compileRules_lt evidence (records.map TrafficRuleRecord.rule)
    (by rwa [List.length_map])
  simp only [compile_eq_ok_iff, compileRules_newRecord (draftFromCreate_valid hcreate) henabled]
  cases hresolve : evidence.resolve draft.selector with
  | mk targets coverage =>
    rw [hresolve] at htargets hcoverage
    cases coverage with
    | unresolved reason =>
      have hanswered : dto.coverage = "unresolved" := hcoverage
      constructor
      · intro _ hcomplete
        cases hcomplete
      · intro _
        refine ⟨_, ⟨rfl, (Nat.le_succ _).trans hlength, hcapacity⟩, ?_, ?_⟩
        · intro hcomplete
          rw [hanswered] at hcomplete
          exact absurd hcomplete (by decide)
        · intro _
          refine ⟨rfl, reason, ?_, ?_⟩
          · exact lookup_last_unresolved _ ⟨_, reason⟩
          · intro hmaster summary
            exact trafficRuleState_unresolved hhandle hmaster henabled
              (lookup_last_unresolved _ ⟨_, reason⟩) summary
    | complete =>
      simp only [preflightResolution] at htargets hcoverage
      cases hcheck : checkTargetCapacity targets draft.direction with
      | ok =>
        rw [hcheck] at htargets hcoverage
        have hanswered : dto.coverage = "complete" := hcoverage
        constructor
        · rintro ⟨program, ⟨rfl, -, hroomy⟩, -⟩ - tier
          rw [← tierEntries_append_ofTargets]
          exact hroomy tier
        · intro hroomy
          refine ⟨_, ⟨rfl, ?_, ?_⟩, ?_, ?_⟩
          · rw [List.length_append, List.length_singleton]
            exact hlength
          · intro tier
            rw [tierEntries_append_ofTargets]
            exact hroomy rfl tier
          · intro _
            rw [htargets]
          · intro hunresolved
            rw [hanswered] at hunresolved
            exact absurd hunresolved (by decide)
      | error reason =>
        -- its own targets overflow a tier, so the program does not compile at all
        constructor
        · rintro ⟨program, ⟨rfl, -, hroomy⟩, -⟩
          exact absurd hroomy (exists_tier_overflow hcheck _ _ _)
        · intro hroomy
          exact absurd (hroomy rfl) (exists_tier_overflow hcheck _ _ _)

end Answer

namespace Crowded

/-- A container that alone fills the inbound or outbound process tier. -/
def crowd : List UInt64 := (List.range 64).map UInt64.ofNat

/-- A container with 64 directories, and one with a directory of its own. -/
def evidence : Evidence where
  inodesForContainer container :=
    if container = "crowd" then crowd
    else if container = "late" then [64]
    else []
  comm _ := none

def create : CreateTrafficRuleRequest where
  action := "block"
  direction := "outbound"
  selector := .application "cont:late"

def draft : TrafficRuleDraft where
  action := .block
  direction := .outbound
  selector := .application "cont:late"
  enabled := true

def request : ResolveTrafficRuleRequest where
  direction := "outbound"
  selector := .application "cont:late"

def answer : ResolveTrafficRuleDto where
  plan := "resolved"
  targets := [.appCgroup 64]
  coverage := "complete"
  reason := none

/-- No rule is stored yet. -/
def empty : Inner := { policyHandle := true }

/-- The whole container is blocked. -/
def row : RawTrafficRule where
  id := 1
  action := "block"
  direction := "outbound"
  selectorJson := .application "cont:crowd"
  rateBytesPerS := none
  burstBytes := none
  enabled := 1
  createdAtMs := 0
  updatedAtMs := 0

def full : Inner where
  db.trafficRules.rows := [row]
  db.trafficRules.ascending := List.pairwise_singleton _ _
  policyHandle := true

def blockCrowd : CompiledRule := .ofTargets 1 .block .outbound (crowd.map .appCgroup)

theorem resolve_container {id container : String} {inodes : List UInt64}
    (hcomm : stripPrefix id "proc:comm:" = none) (hid : stripPrefix id "cont:" = some container)
    (hinodes : evidence.inodesForContainer container = inodes) (hne : inodes ≠ [])
    (hnodup : (inodes.map MatchTarget.appCgroup).Nodup)
    (hsorted : (inodes.map MatchTarget.appCgroup).Pairwise fun a b => ¬ b.rank < a.rank) :
    evidence.resolve (.application id) = ⟨inodes.map .appCgroup, .complete⟩ := by
  change evidence.application id = _
  unfold Evidence.application
  rw [hcomm]
  simp only [hid, hinodes, if_neg hne]
  unfold Resolution.ofTargets
  rw [List.mergeSort_of_pairwise, hnodup.dedup]
  exact hsorted.imp fun hle => decide_eq_true (not_lt.mp hle)

theorem resolve_late : evidence.resolve (.application "cont:late") = ⟨[.appCgroup 64], .complete⟩ := by
  have hid : stripPrefix "cont:late" "cont:" = some "late" := by decide
  have hinodes : evidence.inodesForContainer "late" = [64] := by decide
  exact resolve_container (by decide) hid hinodes (by decide) (by decide) (by decide)

theorem resolve_crowd :
    evidence.resolve (.application "cont:crowd") = ⟨crowd.map .appCgroup, .complete⟩ := by
  have hid : stripPrefix "cont:crowd" "cont:" = some "crowd" := by decide
  have hinodes : evidence.inodesForContainer "crowd" = crowd := by decide
  exact resolve_container (by decide) hid hinodes (by decide) (by decide +kernel)
    (by decide +kernel)

theorem answered : resolveTrafficRule evidence request = .ok answer := by
  unfold resolveTrafficRule request
  simp only [resolve_late, preflightResolution]
  rfl

theorem drafted : draftFromCreate create = .ok draft := by decide +kernel

/-- The programs before the new rule. -/
def before (inner : Inner) (rules : List CompiledRule) : Compiled where
  policy := ⟨0, inner.settings.trafficRules.enabled, rules⟩
  unresolved := ∅

theorem compiled_empty : empty.compilePolicy [] evidence = (.ok (before empty []), empty) := by
  have hrecords : empty.db.trafficRules.rows.mapM RawTrafficRule.intoRecord = .ok [] := rfl
  rw [compilePolicy_of_records hrecords rfl]
  rfl

theorem read_full : full.db.trafficRules.rows.mapM RawTrafficRule.intoRecord =
    .ok [⟨⟨1, .block, .outbound, .application "cont:crowd", true⟩, 0, 0⟩] := by
  decide +kernel

theorem compiled_full : full.compilePolicy [] evidence = (.ok (before full [blockCrowd]), full) := by
  have hrules : compileRules systemResolver evidence
      [⟨1, .block, .outbound, .application "cont:crowd", true⟩] = ([blockCrowd], [], evidence) := by
    simp only [compileRules, compileRule, systemResolver, resolve_crowd]
    rfl
  have hcompile : compile systemResolver evidence
      [⟨1, .block, .outbound, .application "cont:crowd", true⟩] 0
      full.settings.trafficRules.enabled =
        .ok ⟨⟨0, full.settings.trafficRules.enabled, [blockCrowd]⟩, []⟩ := by
    apply compile_eq_ok_iff.mpr
    constructor
    · rw [List.filter_cons_of_pos rfl, List.filter_nil, hrules]
    · constructor
      · decide
      · decide +kernel
  have hrevision : full.db.rulesRevision = 0 := rfl
  rw [compilePolicy_of_records read_full rfl, List.map_singleton, hrevision, hcompile]
  rfl

end Crowded

open Crowded in
/-- With no other rule, the container is blocked as announced. -/
theorem preflight_kept_alone :
    PreflightKept Crowded.empty (before Crowded.empty []) evidence 0 create answer := by
  apply (preflight_kept_iff compiled_empty answered rfl rfl drafted rfl).mpr
  constructor
  · decide
  · intro _
    change ∀ tier, (tierEntries ([] ++ [.ofTargets 0 .block .outbound
      (evidence.resolve (.application "cont:late")).targets]) tier).card ≤ maxTrafficRules
    rw [resolve_late]
    decide +kernel

open Crowded in
/-- Beside the crowd, what was announced as complete is never compiled. -/
theorem full_tier_refuses : ¬ ∀ (inner : Inner) (compiled : Compiled) (evidence : Evidence) (now : ℤ)
    (create : CreateTrafficRuleRequest) (draft : TrafficRuleDraft)
    (request : ResolveTrafficRuleRequest) (dto : ResolveTrafficRuleDto),
    inner.compilePolicy [] evidence = (.ok compiled, inner) →
    resolveTrafficRule evidence request = .ok dto →
    create.selector = request.selector → create.direction = request.direction →
    draftFromCreate create = .ok draft → draft.enabled = true →
    PreflightKept inner compiled evidence now create dto := by
  intro h
  have hkept := h full (before full [blockCrowd]) evidence 0 create draft request answer
    compiled_full answered rfl rfl drafted rfl
  obtain ⟨-, program, hprogram, hcomplete, -⟩ :=
    (preflightKept_iff_compile drafted read_full rfl).mp hkept
  obtain ⟨-, -, hroomy⟩ := compile_eq_ok_iff.mp hprogram
  have hoverflow := hroomy 1
  rw [hcomplete rfl] at hoverflow
  exact absurd hoverflow (by decide +kernel)

end ZimaScope
