import ZimaScope.Api.Sections
import ZimaScope.Policy.Meaning

/-! # Honest enforcement status

Sequences of requests, one at a time, in which storage reads, compilations and
applies may fail. When every program gets as far as the worker, and a request
whose program the worker does not apply leaves no rule to report that was not
there before, the last error is shown and a rule reported active is enforced.
-/

namespace ZimaScope

/-- The API and the worker. -/
structure Daemon where
  inner : Inner := {}
  core : CollectorCore := .start

/-- How the worker meets one program. -/
inductive WorkerInput
  | reached (fault : Option KernelFault)
  | unreachable (error : String)

/-- What the sections of one request meet. -/
structure RequestInput where
  storage : Input
  compile : Input
  worker : WorkerInput
  response : Input

namespace Daemon

def answer (core : CollectorCore) (program : CompiledPolicy) :
    WorkerInput → Except String ApplySummary × CollectorCore
  | .reached fault => core.answer fault program
  | .unreachable error => (.error error, core)

/-- `ApiState::apply_policy`. -/
def applyPolicy (d : Daemon) (input : RequestInput) : Except String ApplySummary × Daemon :=
  match d.inner.compilePolicy input.compile.faults input.compile.evidence with
  | (.error e, inner) => (.error e, { d with inner })
  | (.ok compiled, inner) =>
    let (result, core) := answer d.core compiled.policy input.worker
    (result, ⟨inner.recordApply compiled.unresolved result, core⟩)

/-- One request from start to end: its response, and the result of its `apply_policy` call,
which the handler discards. -/
def serve (d : Daemon) (request : Request) (input : RequestInput) :
    Response × Option (Except String ApplySummary) × Daemon :=
  match d.inner.serve input.storage request with
  | (.error e, inner) => (.problem e, none, { d with inner })
  | (.ok answer, inner) =>
    let (result, d) := { d with inner }.applyPolicy input
    (d.inner.respond input.response (.ok answer), some result, d)

end Daemon

/-- The rules that are reported as active or unresolved. -/
def Inner.reportable (inner : Inner) : List TrafficRule :=
  if inner.policyHandle && inner.settings.trafficRules.enabled then
    (inner.db.trafficRules.rows.filterMap fun row =>
      row.intoRecord.toOption.map TrafficRuleRecord.rule).filter TrafficRule.enabled
  else []

/-- The storage read of `apply_policy` succeeds, and the stored rules compile. -/
def Inner.Compiles (inner : Inner) (input : Input) : Prop :=
  input.faults.headD none = none ∧ ∃ records program,
    inner.db.trafficRules.rows.mapM RawTrafficRule.intoRecord = .ok records ∧
    compile systemResolver input.evidence (records.map TrafficRuleRecord.rule)
      inner.db.rulesRevision inner.settings.trafficRules.enabled = .ok program

/-- The daemon with the result of the last `apply_policy` call. -/
structure Monitored where
  daemon : Daemon := {}
  lastApply : Option (Except String ApplySummary) := none

namespace Monitored

def serve (m : Monitored) (request : Request) (input : RequestInput) : Monitored :=
  ⟨(m.daemon.serve request input).2.2, (m.daemon.serve request input).2.1.or m.lastApply⟩

/-- Requests one at a time, as far as `allowed` admits them. -/
def runs (allowed : Daemon → Request → RequestInput → Prop) (d₀ : Daemon) :
    System Monitored where
  init m := m = { daemon := d₀ }
  step m m' := ∃ request input, allowed m.daemon request input ∧ m' = m.serve request input

/-- A failed apply is shown until one succeeds. -/
def ShowsError (m : Monitored) : Prop :=
  ∀ e, m.lastApply = some (.error e) → m.daemon.inner.policy.lastError.isSome

/-- Every stored rule reported active is part of the applied program, compiled from what it
is now, and enforcement is on. -/
def Honest (E : Set Evidence) (d : Daemon) : Prop :=
  ∀ row ∈ d.inner.db.trafficRules.rows, ∀ record, row.intoRecord = .ok record →
    d.inner.trafficRuleState record.rule = ("active", none) →
      d.core.appliedPolicy.enabled = true ∧
        ∃ evidence ∈ E, record.rule.compiled evidence ∈ d.core.appliedPolicy.rules

/-- The worker applies the program compiled after the storage section. -/
def Applies (d : Daemon) (request : Request) (input : RequestInput) : Prop :=
  ∃ answer inner compiled summary, d.inner.serve input.storage request = (.ok answer, inner) ∧
    (inner.compilePolicy input.compile.faults input.compile.evidence).1 = .ok compiled ∧
    (Daemon.answer d.core compiled.policy input.worker).1 = .ok summary

/-- What the status relies on in one request: with a collector attached the stored rules
compile, and when the worker does not apply the program, the storage section leaves no
rule to report that was not there before. -/
structure Faithful (E : Set Evidence) (d : Daemon) (request : Request) (input : RequestInput) :
    Prop where
  evidence : input.compile.evidence ∈ E
  compiles : ∀ answer inner, d.inner.serve input.storage request = (.ok answer, inner) →
    inner.policyHandle = true → inner.Compiles input.compile
  applied : Applies d request input ∨
    ∀ rule ∈ (d.inner.serve input.storage request).2.reportable, rule ∈ d.inner.reportable

end Monitored

/-! ## What is compiled -/

section Compiled

variable {ev : Evidence}

variable (ev) in
/-- Every enabled rule is compiled or listed as unresolved. -/
theorem mem_compileRules_or_unresolved {rules : List TrafficRule} {rule : TrafficRule}
    (h : rule ∈ rules) : rule.compiled ev ∈ (compileRules systemResolver ev rules).1 ∨
      ∃ unresolved ∈ (compileRules systemResolver ev rules).2.1, unresolved.ruleId = rule.id := by
  induction rules with
  | nil => simp at h
  | cons first rules ih =>
    obtain ⟨result, hc, ⟨hr, rfl⟩ | ⟨hr, reason, rfl⟩⟩ := compileRule_systemResolver ev first
    · simp only [compileRules, hc]
      rcases List.mem_cons.mp h with rfl | h
      · exact Or.inl List.mem_cons_self
      · exact (ih h).imp_left (List.mem_cons_of_mem _)
    · simp only [compileRules, hc]
      rcases List.mem_cons.mp h with rfl | h
      · exact Or.inr ⟨_, List.mem_cons_self, rfl⟩
      · refine (ih h).imp_right ?_
        rintro ⟨unresolved, hu, hid⟩
        exact ⟨unresolved, List.mem_cons_of_mem _ hu, hid⟩

theorem isSome_lookup_foldl {rules : List UnresolvedRule} {m : HashMap UInt32 String} {id : UInt32}
    (h : (AList.lookup id m).isSome ∨ ∃ rule ∈ rules, rule.ruleId = id) :
    (AList.lookup id (rules.foldl (fun m rule => m.insert rule.ruleId rule.reason) m)).isSome := by
  induction rules generalizing m with
  | nil => simpa using h
  | cons first rules ih =>
    rw [List.foldl_cons]
    apply ih
    rcases h with h | ⟨rule, hr, hid⟩
    · left
      by_cases hf : id = first.ruleId
      · rw [hf, AList.lookup_insert]
        rfl
      · rwa [AList.lookup_insert_ne hf]
    · rcases List.mem_cons.mp hr with rfl | hr
      · left
        rw [← hid, AList.lookup_insert]
        rfl
      · exact Or.inr ⟨rule, hr, hid⟩

theorem lookup_unresolvedMap {rules : List UnresolvedRule} {rule : UnresolvedRule}
    (h : rule ∈ rules) : (AList.lookup rule.ruleId (unresolvedMap rules)).isSome :=
  isSome_lookup_foldl (Or.inr ⟨rule, h, rfl⟩)

/-- An enabled rule that the compilation leaves out is in its unresolved map. -/
theorem mem_rules_of_compile {rules : List TrafficRule} {revision : ℕ} {enabled : Bool}
    {program : CompiledProgram}
    (h : compile systemResolver ev rules revision enabled = .ok program) {rule : TrafficRule}
    (hr : rule ∈ rules) (he : rule.enabled = true)
    (hu : AList.lookup rule.id (unresolvedMap program.unresolved) = none) :
    rule.compiled ev ∈ program.policy.rules := by
  obtain ⟨rfl, _, _⟩ := compile_ok h
  have hmem : rule ∈ rules.filter TrafficRule.enabled := List.mem_filter.mpr ⟨hr, he⟩
  rcases mem_compileRules_or_unresolved ev hmem with hc | ⟨unresolved, hmu, hid⟩
  · exact hc
  · have hlookup := lookup_unresolvedMap hmu
    rw [hid, hu] at hlookup
    simp at hlookup

end Compiled

/-! ## Reported rules -/

namespace Inner

variable {inner : Inner} {rule : TrafficRule}

theorem active_iff : inner.trafficRuleState rule = ("active", none) ↔
    inner.policyHandle = true ∧ inner.settings.trafficRules.enabled = true ∧
      rule.enabled = true ∧ AList.lookup rule.id inner.policy.unresolved = none := by
  unfold trafficRuleState
  cases inner.policyHandle
  · simp
  cases inner.settings.trafficRules.enabled
  · simp
  cases rule.enabled
  · simp
  cases AList.lookup rule.id inner.policy.unresolved <;> simp

theorem mem_reportable : rule ∈ inner.reportable ↔
    inner.policyHandle = true ∧ inner.settings.trafficRules.enabled = true ∧
      rule.enabled = true ∧
        ∃ row ∈ inner.db.trafficRules.rows, ∃ record, row.intoRecord = .ok record ∧
          record.rule = rule := by
  unfold reportable
  cases inner.policyHandle
  · simp
  cases inner.settings.trafficRules.enabled
  · simp
  simp only [Bool.and_true, if_true, List.mem_filter, List.mem_filterMap, true_and]
  rw [and_comm]
  refine and_congr_right fun _ => exists_congr fun row => and_congr_right fun _ => ?_
  cases row.intoRecord <;> simp [Except.toOption]

/-- Stored rules that can be read and compiled are compiled. -/
theorem Compiles.compilePolicy {input : Input} (h : inner.Compiles input)
    (hh : inner.policyHandle = true) :
    ∃ compiled, (inner.compilePolicy input.faults input.evidence).1 = .ok compiled := by
  obtain ⟨hf, records, program, hrecords, hprogram⟩ := h
  unfold Inner.compilePolicy
  rw [run_listTrafficRules, hf, hh]
  simp only [hrecords, hprogram, Bool.true_eq_false, if_false]
  exact ⟨_, rfl⟩

end Inner

namespace Daemon

/-- The worker holds the program it answered ok to, and keeps the old one otherwise. -/
theorem answer_cases (core : CollectorCore) (program : CompiledPolicy) (worker : WorkerInput) :
    (∃ summary, (answer core program worker).1 = .ok summary ∧
      (answer core program worker).2.appliedPolicy = program) ∨
    (∃ error, (answer core program worker).1 = .error error ∧
      (answer core program worker).2.appliedPolicy = core.appliedPolicy) := by
  cases worker with
  | reached fault =>
    refine (core.answer_cases fault program).imp_left ?_
    rintro ⟨operations, h⟩
    exact ⟨_, h⟩
  | unreachable error => exact Or.inr ⟨error, rfl, rfl⟩

/-- An apply that succeeds has compiled the stored rules and installed the program. -/
structure Installed (d : Daemon) (input : RequestInput) (summary : ApplySummary) (d' : Daemon) :
    Prop where
  compiled : ∃ compiled, d.inner.compilePolicy input.compile.faults input.compile.evidence =
      (.ok compiled, d.inner) ∧
    d'.core.appliedPolicy = compiled.policy ∧
    d'.inner = d.inner.recordApply compiled.unresolved (.ok summary)

/-- An apply that fails changes at most the recorded error. With a collector attached and
rules that compile the error is recorded, and then the worker did not apply the program. -/
structure Failed (d : Daemon) (input : RequestInput) (d' : Daemon) : Prop where
  inner : ∃ lastError, d'.inner = { d.inner with policy.lastError := lastError }
  core : d'.core.appliedPolicy = d.core.appliedPolicy
  recorded : (d.inner.policyHandle = true → d.inner.Compiles input.compile) →
    d'.inner.policy.lastError.isSome
  refused : ∀ compiled summary,
    (d.inner.compilePolicy input.compile.faults input.compile.evidence).1 = .ok compiled →
      (answer d.core compiled.policy input.worker).1 ≠ .ok summary

theorem applyPolicy_cases (d : Daemon) (input : RequestInput) :
    (∃ summary, (d.applyPolicy input).1 = .ok summary ∧
      Installed d input summary (d.applyPolicy input).2) ∨
    (∃ error, (d.applyPolicy input).1 = .error error ∧ Failed d input (d.applyPolicy input).2) := by
  unfold applyPolicy
  cases hc : d.inner.compilePolicy input.compile.faults input.compile.evidence with
  | mk result inner =>
  cases result with
  | error e =>
    refine Or.inr ⟨e, rfl, Inner.compilePolicy_error hc, rfl, fun hcompiles => ?_, ?_⟩
    · cases hh : d.inner.policyHandle with
      | false =>
        rw [Inner.compilePolicy, if_pos hh] at hc
        obtain rfl := (Prod.mk.inj hc).2
        rfl
      | true =>
        obtain ⟨compiled, hok⟩ := (hcompiles hh).compilePolicy hh
        rw [hc] at hok
        simp at hok
    · intro compiled summary hok
      rw [hc] at hok
      simp at hok
  | ok compiled =>
    obtain ⟨rfl, hh, -⟩ := Inner.compilePolicy_ok hc
    rcases answer_cases d.core compiled.policy input.worker with
      ⟨summary, hr, ha⟩ | ⟨error, hr, ha⟩
    · exact Or.inl ⟨summary, hr, compiled, hc, ha, by simp only [hr]⟩
    · refine Or.inr ⟨error, hr, ⟨some error, by simp only [hr]; rfl⟩, ha, fun _ => ?_, ?_⟩
      · simp only [hr]
        rfl
      · rintro compiled' summary hok
        rw [hc] at hok
        obtain rfl := Except.ok.inj hok
        rw [hr]
        simp

end Daemon

namespace Monitored

variable {E : Set Evidence} {d d' : Daemon}

/-- Without a new program an honest daemon stays honest, as long as no rule turns up. -/
theorem Honest.unapplied (h : Honest E d) (hcore : d'.core.appliedPolicy = d.core.appliedPolicy)
    (hu : d'.inner.policy.unresolved = d.inner.policy.unresolved)
    (hr : ∀ rule ∈ d'.inner.reportable, rule ∈ d.inner.reportable) : Honest E d' := by
  intro row hrow record hrecord hactive
  obtain ⟨hhandle, hmaster, henabled, hlookup⟩ := Inner.active_iff.mp hactive
  have hmem := hr record.rule
    (Inner.mem_reportable.mpr ⟨hhandle, hmaster, henabled, row, hrow, record, hrecord, rfl⟩)
  obtain ⟨hhandle₀, hmaster₀, -, row₀, hrow₀, record₀, hrecord₀, hrule⟩ :=
    Inner.mem_reportable.mp hmem
  rw [hu] at hlookup
  rw [hcore, ← hrule]
  refine h row₀ hrow₀ record₀ hrecord₀ (Inner.active_iff.mpr ?_)
  rw [hrule]
  exact ⟨hhandle₀, hmaster₀, henabled, hlookup⟩

/-- With its program applied a daemon is honest, whatever it was before. -/
theorem Honest.installed {input : RequestInput} {summary : ApplySummary}
    (h : d.Installed input summary d') (hE : input.compile.evidence ∈ E) : Honest E d' := by
  obtain ⟨compiled, hc, hcore, hinner⟩ := h
  obtain ⟨-, -, records, program, hrecords, hprogram, rfl⟩ := Inner.compilePolicy_ok hc
  intro row hrow record hrecord hactive
  rw [hinner] at hrow hactive
  obtain ⟨-, hmaster, henabled, hlookup⟩ := Inner.active_iff.mp hactive
  have hmem : record ∈ records := Except.mem_of_mapM hrecords hrow hrecord
  rw [hcore]
  constructor
  · rw [rules_of_compile hprogram]
    exact hmaster
  · exact ⟨_, hE, mem_rules_of_compile hprogram (List.mem_map_of_mem hmem) henabled hlookup⟩

/-- A request whose storage section fails is answered without an apply. -/
theorem serve_error {request : Request} {input : RequestInput} {e : ApiError} {inner : Inner}
    (h : d.inner.serve input.storage request = (.error e, inner)) :
    (d.serve request input).2 = (none, { d with inner }) := by
  unfold Daemon.serve
  rw [h]

theorem serve_ok {request : Request} {input : RequestInput} {answer : Answer} {inner : Inner}
    (h : d.inner.serve input.storage request = (.ok answer, inner)) :
    (d.serve request input).2 = (some (Daemon.applyPolicy { d with inner } input).1,
      (Daemon.applyPolicy { d with inner } input).2) := by
  unfold Daemon.serve
  rw [h]

theorem Honest.serve {request : Request} {input : RequestInput} (hh : Honest E d)
    (hf : Faithful E d request input) : Honest E (d.serve request input).2.2 := by
  have happlied := hf.applied
  cases hs : d.inner.serve input.storage request with
  | mk result inner =>
  rw [hs] at happlied
  have hunresolved : inner.policy.unresolved = d.inner.policy.unresolved := by
    rw [← Inner.policy_serve d.inner input.storage request, hs]
  cases result with
  | error e =>
    rw [serve_error hs]
    rcases happlied with ⟨answer, _, _, _, hok, _⟩ | hr
    · rw [hs] at hok
      simp at hok
    · exact hh.unapplied rfl hunresolved hr
  | ok answer =>
    rw [serve_ok hs]
    rcases Daemon.applyPolicy_cases { d with inner } input with
      ⟨summary, -, hinstalled⟩ | ⟨error, -, hfailed⟩
    · exact .installed hinstalled hf.evidence
    · obtain ⟨lastError, hinner⟩ := hfailed.inner
      rcases happlied with ⟨_, _, compiled, summary, hok, hcompiled, hans⟩ | hr
      · rw [hs] at hok
        obtain ⟨-, rfl⟩ := Prod.mk.inj hok
        exact absurd hans (hfailed.refused compiled summary hcompiled)
      · refine hh.unapplied hfailed.core ?_ ?_
        · rw [hinner]
          exact hunresolved
        · rw [hinner]
          exact hr

theorem ShowsError.serve {m : Monitored} {request : Request} {input : RequestInput}
    (hm : m.ShowsError) (hf : Faithful E m.daemon request input) :
    (m.serve request input).ShowsError := by
  intro e he
  unfold Monitored.serve at he ⊢
  cases hs : m.daemon.inner.serve input.storage request with
  | mk result inner =>
  cases result with
  | error _ =>
    have hpolicy : inner.policy = m.daemon.inner.policy := by
      rw [← Inner.policy_serve m.daemon.inner input.storage request, hs]
    rw [serve_error hs] at he ⊢
    have hshown := hm e he
    rw [← hpolicy] at hshown
    exact hshown
  | ok answer =>
    rw [serve_ok hs] at he ⊢
    rcases Daemon.applyPolicy_cases { m.daemon with inner } input with
      ⟨summary, hr, -⟩ | ⟨error, hr, hfailed⟩
    · rw [hr] at he
      simp at he
    · exact hfailed.recorded (hf.compiles answer inner hs)

end Monitored

/-- Nothing fails. -/
def RequestInput.quiet : RequestInput :=
  ⟨{ evidence := .none }, { evidence := .none }, .reached none, { evidence := .none }⟩

namespace Monitored

/-- The daemon with its collector attached. -/
def started : Monitored := serve {} .startup .quiet

def blockRequest : CreateTrafficRuleRequest where
  action := "block"
  direction := "outbound"
  selector := .endpoint (.v4 (.new 203 0 113 1)) none

/-- The compilation that follows the request cannot read the rules. -/
def unread : Monitored :=
  started.serve (.create blockRequest) { RequestInput.quiet with
    compile := { faults := [some "disk I/O error"], evidence := .none } }

/-- The worker fails to install the program of a request that creates a rule. -/
def uninstalled : Monitored :=
  started.serve (.create blockRequest) { RequestInput.quiet with
    worker := .reached (some (0, { context := "insert", error := .full })) }

end Monitored

end ZimaScope
