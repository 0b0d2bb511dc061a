import ZimaScope.Policy.Meaning

/-! # Host bits of a range

The match entry of a CIDR rule carries the address as it was written, and the
trie keeps only the bits of the prefix. Two entries of one range are different
to a diff and the same to the trie, so the diff removes what it has just written.
-/

namespace ZimaScope

open WriteLog

/-! ## The writes of an edited rule -/

section Edited

variable {previous next : CheckedPolicy} {rule before : CompiledRule}

/-- A rule that stays as it was writes nothing. -/
theorem writes_matchStage_of_same (h : previous.rule rule.id = some rule) :
    (matchStage previous rule).writes = [] := by
  have hinstalled : rule.installedEntries (some rule) = [] := by
    apply List.filter_eq_nil_iff.mpr
    intro entry hentry
    simp [CompiledRule.matchUnchanged, hentry]
  have hdropped : CompiledRule.droppedEntries (some rule) rule = [] := by
    apply List.filter_eq_nil_iff.mpr
    intro entry hentry
    simp [hentry]
  unfold matchStage Stage.writes installedKeys droppedKeys
  rw [h, hinstalled, hdropped]
  rfl

/-- A rule whose states stay writes none of them. -/
theorem writes_stateStage_of_same (h : previous.rule rule.id = some before)
    (hstates : before.states = rule.states) (hexpanded : rule.Expanded) :
    (stateStage previous rule).writes = [] := by
  obtain ⟨direction, rates, hrates, -⟩ := hexpanded
  have hsame : ∀ s ∈ rule.states, s.rateBytesPerS = rates.1 ∧ s.burstBytes = rates.2 := by
    rw [hrates]
    unfold compiledStates
    intro s hs
    obtain ⟨d, -, rfl⟩ := List.mem_map.mp hs
    exact ⟨rfl, rfl⟩
  have hchanged : rule.changedStates (some before) = [] := by
    apply List.filter_eq_nil_iff.mpr
    intro state hstate
    unfold CompiledRule.stateUnchanged
    rw [Option.bind_some, hstates]
    cases hfind : rule.states.find? fun s => s.key = state.key with
    | none => simpa using List.find?_eq_none.mp hfind state hstate
    | some s =>
      obtain ⟨hrate, hburst⟩ := hsame s (List.mem_of_find?_eq_some hfind)
      obtain ⟨hrate', hburst'⟩ := hsame state hstate
      simp [hrate, hburst, hrate', hburst']
  unfold stateStage Stage.writes
  rw [h, hchanged]
  rfl

variable {pre post : List CompiledRule} {old new : CompiledRule}

/-- When one rule is edited, the diff writes what the edit of this rule does. -/
theorem writes_diff_edit (hp : previous.rules = pre ++ old :: post)
    (hn : next.rules = pre ++ new :: post) (hid : new.id = old.id)
    (hstates : old.states = new.states) :
    matchWrites (diff previous next) = (matchStage previous new).writes ∧
      stateWrites (diff previous next) = [] := by
  have hretired : retiredRules previous next = [] := by
    apply List.filter_eq_nil_iff.mpr
    intro rule hr hgone
    have hnone := CompiledPolicy.rule_eq_none.mp (Option.isNone_iff_eq_none.mp hgone)
    rw [hp, List.mem_append, List.mem_cons] at hr
    rcases hr with hr | rfl | hr
    · exact hnone rule (by simp [hn, hr]) rfl
    · exact hnone new (by simp [hn]) hid
    · exact hnone rule (by simp [hn, hr]) rfl
  have hold : previous.rule new.id = some old := by
    rw [hid]
    exact previous.rule_id (by simp [hp])
  have hsame : ∀ rule ∈ pre ++ post, previous.rule rule.id = some rule := by
    intro rule hr
    apply previous.rule_id
    rw [hp]
    rcases List.mem_append.mp hr with hr | hr <;> simp [hr]
  have hmatch : ∀ rules : List CompiledRule, (∀ rule ∈ rules, previous.rule rule.id = some rule) →
      log (rules.map (matchStage previous)) = [] := by
    intro rules hrules
    simp only [log, List.flatMap_map, List.flatMap_eq_nil_iff]
    exact fun rule hr => writes_matchStage_of_same (hrules rule hr)
  have hstate : ∀ rules : List CompiledRule, (∀ rule ∈ rules, previous.rule rule.id = some rule) →
      log (rules.map (stateStage previous)) = [] := by
    intro rules hrules
    simp only [log, List.flatMap_map, List.flatMap_eq_nil_iff]
    intro rule hr
    exact writes_stateStage_of_same (hrules rule hr) rfl
      (previous.expanded rule (CompiledPolicy.mem_of_rule (hrules rule hr)).1)
  have hpre : ∀ rule ∈ pre, previous.rule rule.id = some rule := fun rule hr =>
    hsame rule (List.mem_append_left _ hr)
  have hpost : ∀ rule ∈ post, previous.rule rule.id = some rule := fun rule hr =>
    hsame rule (List.mem_append_right _ hr)
  constructor
  · rw [matchWrites_diff, matchStages, retiredKeys, hretired, log_cons, hn, List.map_append,
      List.map_cons, log_append, log_cons, hmatch pre hpre, hmatch post hpost, List.append_nil]
    rfl
  · have hnew : new.Expanded := next.expanded new (by simp [hn])
    rw [stateWrites_diff, stateStages, retiredStateKeys, hretired, log_cons, hn, List.map_append,
      List.map_cons, log_append, log_cons, hstate pre hpre, hstate post hpost,
      writes_stateStage_of_same hold hstates hnew]
    rfl

end Edited

/-! ## Editing the address of a range -/

/-- A program with one CIDR rule whose address is edited within its range. -/
structure CidrEdit where
  before : List TrafficRule
  after : List TrafficRule
  rule : TrafficRule
  prefixLen : ℕ
  old : Ipv4Addr
  new : Ipv4Addr
  enabled : rule.enabled = true
  ids_nodup : ((before ++ rule :: after).map TrafficRule.id).Nodup
  valid : ∀ a ∈ [old, new],
    validateRule { rule with selector := .cidr (.v4 a) prefixLen } = .ok ()
  same_range : lpmKey prefixLen old.octets = lpmKey prefixLen new.octets

namespace CidrEdit

variable (e : CidrEdit)

def ruleOn (a : Ipv4Addr) : TrafficRule := { e.rule with selector := .cidr (.v4 a) e.prefixLen }

def rulesOn (a : Ipv4Addr) : List TrafficRule := e.before ++ e.ruleOn a :: e.after

/-- The kernel key of the range. -/
def key (d : Direction) : MatchKey := .endpointCidr d (lpmKey e.prefixLen e.old.octets)

/-- The rule is what the trie finds for its range. -/
def Enforced (maps : PolicyMaps) : Prop :=
  ∀ d ∈ e.rule.direction.directions, maps.matchAt (e.key d) = some e.rule.ref

section Compiled

variable {e} {ev : Evidence} {a : Ipv4Addr} (ha : a ∈ [e.old, e.new])

include ha

theorem resolvable_ruleOn : (e.ruleOn a).resolvable ev = true := by
  unfold TrafficRule.resolvable ruleOn
  rw [e.valid a ha]
  rfl

theorem activeRules_rulesOn : activeRules ev (e.rulesOn a) =
    activeRules ev e.before ++ e.ruleOn a :: activeRules ev e.after := by
  have henabled : (e.ruleOn a).enabled = true := e.enabled
  unfold activeRules rulesOn
  rw [List.filter_append, List.filter_append, List.filter_cons_of_pos henabled,
    List.filter_cons_of_pos (resolvable_ruleOn ha)]

omit ha in
theorem matchEntries_compiled : ((e.ruleOn a).compiled ev).matchEntries =
    e.rule.direction.directions.map fun d => .endpointCidr d e.prefixLen a.octets := by
  have htargets : (Resolution.ofTargets [.cidr a e.prefixLen]).targets =
      [.cidr a e.prefixLen] := by
    unfold Resolution.ofTargets
    simp
  change matchesFromTargets (Resolution.ofTargets [.cidr a e.prefixLen]).targets
    e.rule.direction = _
  rw [htargets]
  unfold matchesFromTargets
  simp only [List.map_cons, List.map_nil, targetEntry]
  exact List.flatMap_pure_eq_map _ _

theorem key_eq (d : Direction) :
    (MatchEntry.endpointCidr d e.prefixLen a.octets).key = e.key d := by
  unfold MatchEntry.key CidrEdit.key
  simp only [List.mem_cons, List.not_mem_nil, or_false] at ha
  rcases ha with rfl | rfl
  · rfl
  · rw [e.same_range]

/-- A rule compiles to the entry of the address as it was written. -/
theorem compileRule_ruleOn :
    (compileRule systemResolver ev (e.ruleOn a)).1 = .ok ((e.ruleOn a).compiled ev) := by
  obtain ⟨result, hc, ⟨-, rfl⟩ | ⟨hno, -⟩⟩ := compileRule_systemResolver ev (e.ruleOn a)
  · rw [hc]
  · rw [resolvable_ruleOn ha] at hno
    cases hno

end Compiled

theorem directions_ne_nil (direction : RuleDirection) : direction.directions ≠ [] := by
  cases direction <;> decide

theorem nodup_directions (direction : RuleDirection) : direction.directions.Nodup := by
  cases direction <;> decide

theorem compiled_eq_iff (ev : Evidence) :
    (compileRule systemResolver ev (e.ruleOn e.old)).1 =
      (compileRule systemResolver ev (e.ruleOn e.new)).1 ↔ e.old = e.new := by
  rw [compileRule_ruleOn (by simp), compileRule_ruleOn (by simp)]
  constructor
  · intro h
    have hentries := congrArg CompiledRule.matchEntries (Except.ok.inj h)
    rw [matchEntries_compiled, matchEntries_compiled] at hentries
    obtain ⟨d, hd⟩ := List.exists_mem_of_ne_nil _ (directions_ne_nil e.rule.direction)
    have hentry := List.map_inj_left.mp hentries d hd
    simp only [MatchEntry.endpointCidr.injEq, true_and] at hentry
    exact congrArg Ipv4Addr.mk hentry
  · intro h
    rw [h]

theorem ids_rulesOn_nodup (a : Ipv4Addr) : ((e.rulesOn a).map TrafficRule.id).Nodup := by
  have hsame : (e.rulesOn a).map TrafficRule.id =
      (e.before ++ e.rule :: e.after).map TrafficRule.id := by
    unfold rulesOn ruleOn
    rw [List.map_append, List.map_append]
    rfl
  rw [hsame]
  exact e.ids_nodup

/-- Addresses written differently have no entry in common. -/
theorem not_mem_matchEntries {ev : Evidence} {a b : Ipv4Addr} (hne : a ≠ b) {entry : MatchEntry}
    (hentry : entry ∈ ((e.ruleOn a).compiled ev).matchEntries) :
    entry ∉ ((e.ruleOn b).compiled ev).matchEntries := by
  rw [matchEntries_compiled] at hentry ⊢
  obtain ⟨d, -, rfl⟩ := List.mem_map.mp hentry
  intro hmem
  obtain ⟨d', -, heq⟩ := List.mem_map.mp hmem
  simp only [MatchEntry.endpointCidr.injEq, true_and] at heq
  exact hne (congrArg Ipv4Addr.mk heq.2).symm

/-- The writes of the edit: each key of the range is put and then removed, if the address changed. -/
theorem writes_edit {ev : Evidence} {previous next : CheckedPolicy}
    (hp : previous.rules = (activeRules ev (e.rulesOn e.old)).map (TrafficRule.compiled ev))
    (hn : next.rules = (activeRules ev (e.rulesOn e.new)).map (TrafficRule.compiled ev)) :
    stateWrites (diff previous next) = [] ∧
      matchWrites (diff previous next) = if e.old = e.new then [] else
        (e.rule.direction.directions.map fun d => (e.key d, e.rule.ref)).map
            (fun p => .put p.1 p.2) ++
          (e.rule.direction.directions.map e.key).map .del := by
  rw [activeRules_rulesOn (by simp), List.map_append, List.map_cons] at hp hn
  obtain ⟨hmatch, hstate⟩ := writes_diff_edit hp hn rfl rfl
  refine ⟨hstate, ?_⟩
  have hold : previous.rule (e.ruleOn e.new).id = some ((e.ruleOn e.old).compiled ev) :=
    @CheckedPolicy.rule_id previous ((e.ruleOn e.old).compiled ev) (by simp [hp])
  rw [hmatch]
  by_cases h : e.old = e.new
  · rw [if_pos h]
    rw [h] at hold
    exact writes_matchStage_of_same hold
  · have hinstalled : CompiledRule.installedEntries (some ((e.ruleOn e.old).compiled ev))
        ((e.ruleOn e.new).compiled ev) = ((e.ruleOn e.new).compiled ev).matchEntries := by
      apply List.filter_eq_self.mpr
      intro entry hentry
      simp [CompiledRule.matchUnchanged, e.not_mem_matchEntries (Ne.symm h) hentry]
    have hdropped : CompiledRule.droppedEntries (some ((e.ruleOn e.old).compiled ev))
        ((e.ruleOn e.new).compiled ev) = ((e.ruleOn e.old).compiled ev).matchEntries := by
      apply List.filter_eq_self.mpr
      intro entry hentry
      exact decide_eq_true (e.not_mem_matchEntries h hentry)
    have hid : ((e.ruleOn e.new).compiled ev).id = (e.ruleOn e.new).id := rfl
    unfold matchStage Stage.writes installedKeys droppedKeys
    rw [if_neg h, hid, hold, hinstalled, hdropped, matchEntries_compiled, matchEntries_compiled]
    simp only [List.map_map, Function.comp_def, key_eq (e := e) (a := e.new) (by simp),
      key_eq (e := e) (a := e.old) (by simp)]
    rfl

/-- The kernel takes the edit of a rule that is enforced. -/
theorem accepts_edit {ev : Evidence} {previous next : CheckedPolicy}
    (hp : previous.rules = (activeRules ev (e.rulesOn e.old)).map (TrafficRule.compiled ev))
    (hn : next.rules = (activeRules ev (e.rulesOn e.new)).map (TrafficRule.compiled ev))
    {maps : PolicyMaps} (h : e.Enforced maps) : maps.Accepts (diff previous next) := by
  obtain ⟨hstate, hmatch⟩ := e.writes_edit hp hn
  have hpresent : ∀ p ∈ e.rule.direction.directions.map fun d => (e.key d, e.rule.ref),
      (maps.matchAt p.1).isSome := by
    intro p hp
    obtain ⟨d, hd, rfl⟩ := List.mem_map.mp hp
    rw [h d hd]
    rfl
  have hkeys : (e.rule.direction.directions.map e.key).Nodup := by
    refine (nodup_directions e.rule.direction).map fun d d' hd => ?_
    exact (MatchKey.endpointCidr.inj hd).1
  constructor
  · rw [hmatch]
    split
    · trivial
    · refine legal_append.mpr ⟨legal_puts_of_present hpresent, legal_dels.mpr ⟨hkeys, ?_⟩⟩
      intro k hk
      rw [replay_puts_isSome]
      obtain ⟨d, hd, rfl⟩ := List.mem_map.mp hk
      exact Or.inr (by rw [h d hd]; rfl)
  · rw [hstate]
    trivial

/-- The range of an edited rule stays enforced by it exactly when the address did not change. -/
theorem enforced_iff {ev : Evidence} {revision revision' : ℕ} {enabled enabled' : Bool}
    {program program' : CompiledProgram}
    (hold : compile systemResolver ev (e.rulesOn e.old) revision enabled = .ok program)
    (hnew : compile systemResolver ev (e.rulesOn e.new) revision' enabled' = .ok program')
    {maps : PolicyMaps} (h : e.Enforced maps) :
    (applyOps maps (diff program.policy program'.policy)).1 = .ok () ∧
      (e.Enforced (applyOps maps (diff program.policy program'.policy)).2 ↔ e.old = e.new) := by
  obtain ⟨previous, hprevious⟩ := exists_checkedPolicy_of_compile (e.ids_rulesOn_nodup e.old) hold
  obtain ⟨next, hnext⟩ := exists_checkedPolicy_of_compile (e.ids_rulesOn_nodup e.new) hnew
  have hp : previous.rules =
      (activeRules ev (e.rulesOn e.old)).map (TrafficRule.compiled ev) := by
    rw [hprevious, rules_of_compile hold]
  have hn : next.rules = (activeRules ev (e.rulesOn e.new)).map (TrafficRule.compiled ev) := by
    rw [hnext, rules_of_compile hnew]
  rw [← hprevious, ← hnext, applyOps_ok_iff.mpr ⟨e.accepts_edit hp hn h, rfl⟩]
  refine ⟨rfl, ?_⟩
  unfold Enforced
  rw [PolicyMaps.matchAt_effects, (e.writes_edit hp hn).2]
  constructor
  · intro hafter
    by_contra hne
    obtain ⟨d, hd⟩ := List.exists_mem_of_ne_nil _ (directions_ne_nil e.rule.direction)
    have hkey := hafter d hd
    rw [if_neg hne, replay_append, replay_dels, if_pos (List.mem_map_of_mem hd)] at hkey
    cases hkey
  · intro hsame
    rw [if_pos hsame]
    exact h

/-- A range compiles to one entry, and stays enforced over an edit of its
address, exactly when the address is written with the same host bits. -/
theorem canonical_iff {ev : Evidence} {revision revision' : ℕ} {enabled enabled' : Bool}
    {program program' : CompiledProgram}
    (hold : compile systemResolver ev (e.rulesOn e.old) revision enabled = .ok program)
    (hnew : compile systemResolver ev (e.rulesOn e.new) revision' enabled' = .ok program')
    {maps : PolicyMaps} (h : e.Enforced maps) :
    ((compileRule systemResolver ev (e.ruleOn e.old)).1 =
        (compileRule systemResolver ev (e.ruleOn e.new)).1 ↔ e.old = e.new) ∧
      (applyOps maps (diff program.policy program'.policy)).1 = .ok () ∧
      (e.Enforced (applyOps maps (diff program.policy program'.policy)).2 ↔ e.old = e.new) :=
  ⟨e.compiled_eq_iff ev, e.enforced_iff hold hnew h⟩

end CidrEdit

section Example

/-- The network 10.0.0.0/8, written with two of its addresses. -/
def hostEdit : CidrEdit where
  before := []
  after := []
  rule := ⟨1, .block, .outbound, .cidr (.v4 (.new 10 0 0 1)) 8, true⟩
  prefixLen := 8
  old := .new 10 0 0 1
  new := .new 10 0 0 2
  enabled := rfl
  ids_nodup := by decide
  valid := by decide +kernel
  same_range := by decide

/-- The program of the rule, for an address. -/
def hostProgram (a : Ipv4Addr) : CompiledProgram :=
  ⟨⟨1, true, [(hostEdit.ruleOn a).compiled noEvidence]⟩, []⟩

def hostMaps : PolicyMaps :=
  (applyOps PolicyMaps.empty (diff {} (hostProgram hostEdit.old).policy)).2

theorem compile_host_old : compile systemResolver noEvidence (hostEdit.rulesOn hostEdit.old) 1
    true = .ok (hostProgram hostEdit.old) := by decide +kernel

theorem compile_host_new : compile systemResolver noEvidence (hostEdit.rulesOn hostEdit.new) 1
    true = .ok (hostProgram hostEdit.new) := by decide +kernel

theorem enforced_hostMaps : hostEdit.Enforced hostMaps := by
  unfold CidrEdit.Enforced
  decide +kernel

theorem host_edit_canonical :
    (hostEdit.Enforced (applyOps hostMaps
      (diff (hostProgram hostEdit.old).policy (hostProgram hostEdit.new).policy)).2 ↔
        hostEdit.old = hostEdit.new) :=
  (hostEdit.canonical_iff compile_host_old compile_host_new enforced_hostMaps).2.2

/-- The diff removes the range that it has just written for the other address. -/
theorem host_edit_loses_range : ¬ ∀ (e : CidrEdit) (program program' : CompiledProgram)
    (maps : PolicyMaps),
    compile systemResolver noEvidence (e.rulesOn e.old) 1 true = .ok program →
      compile systemResolver noEvidence (e.rulesOn e.new) 1 true = .ok program' →
        e.Enforced maps → e.Enforced (applyOps maps (diff program.policy program'.policy)).2 := by
  intro h
  have hafter := h hostEdit _ _ hostMaps compile_host_old compile_host_new enforced_hostMaps
    .outbound (by decide)
  revert hafter
  decide +kernel

end Example

end ZimaScope
