import ZimaScope.Collector.Apply

/-! # Reconciled rule states

What a reconciliation leaves in the rule state map. Every state of the next
program is there with its parameters; a state of the previous program survives
when its rule is kept under the same id without that direction.
-/

namespace ZimaScope

open WriteLog

namespace CompiledPolicy

/-- A rule of the policy has a state under the key, with these parameters. -/
def Allots (policy : CompiledPolicy) (key : BucketKey) (params : ℕ × ℕ) : Prop :=
  ∃ rule ∈ policy.rules, ∃ s ∈ rule.states, s.key = key ∧ (s.rateBytesPerS, s.burstBytes) = params

instance (policy : CompiledPolicy) (key : BucketKey) (params : ℕ × ℕ) :
    Decidable (policy.Allots key params) :=
  inferInstanceAs (Decidable (∃ rule ∈ policy.rules, ∃ s ∈ rule.states, s.key = key ∧
    (s.rateBytesPerS, s.burstBytes) = params))

/-- The keys the rules of a policy may have states under. -/
def stateSlots (policy : CompiledPolicy) : List BucketKey :=
  policy.rules.flatMap fun rule =>
    RuleDirection.both.directions.map fun d => ⟨rule.id, d.toU8⟩

theorem length_stateSlots (policy : CompiledPolicy) :
    policy.stateSlots.length = 2 * policy.rules.length := by
  simp [stateSlots, List.length_flatMap, RuleDirection.directions]
  omega

end CompiledPolicy

/-- Every state of the program is in the map, with its parameters. -/
def KeepsAllotted (maps : PolicyMaps) (policy : CompiledPolicy) : Prop :=
  ∀ key params, policy.Allots key params → maps.paramsAt key = some params

/-- The rule state map holds exactly the states of a program. -/
def HoldsStates (maps : PolicyMaps) (policy : CompiledPolicy) : Prop :=
  ∀ key params, maps.paramsAt key = some params ↔ policy.Allots key params

/-- No rule kept under its id gives up a direction. -/
def KeepsDirections (previous next : CompiledPolicy) : Prop :=
  ∀ rule ∈ next.rules, ∀ before, previous.rule rule.id = some before →
    ∀ key ∈ before.stateKeys, key ∈ rule.stateKeys

namespace CompiledRule

variable {rule : CompiledRule} {key : BucketKey}

theorem mem_stateKeys : key ∈ rule.stateKeys ↔ ∃ s ∈ rule.states, s.key = key := by
  simp [stateKeys]

theorem Expanded.stateKeys_eq (h : rule.Expanded) : ∃ direction : RuleDirection,
    rule.stateKeys = direction.directions.map fun d => ⟨rule.id, d.toU8⟩ := by
  obtain ⟨direction, rates, hs, _⟩ := h
  exact ⟨direction, by rw [stateKeys, hs]; simp [compiledStates, Function.comp_def]⟩

theorem Expanded.ruleId_stateKey (h : rule.Expanded) (hk : key ∈ rule.stateKeys) :
    key.ruleId = rule.id := by
  obtain ⟨direction, hs⟩ := h.stateKeys_eq
  rw [hs] at hk
  obtain ⟨d, _, rfl⟩ := List.mem_map.mp hk
  rfl

theorem Expanded.nodup_stateKeys (h : rule.Expanded) : rule.stateKeys.Nodup := by
  obtain ⟨direction, hs⟩ := h.stateKeys_eq
  rw [hs]
  refine List.Nodup.map (fun a b hab => Direction.toU8_injective (by injection hab)) ?_
  cases direction <;> decide

/-- A state is determined by its key. -/
theorem Expanded.state_inj (h : rule.Expanded) {s s' : CompiledState} (hs : s ∈ rule.states)
    (hs' : s' ∈ rule.states) (hk : s.key = s'.key) : s = s' :=
  List.inj_on_of_nodup_map h.nodup_stateKeys hs hs' hk

theorem exists_of_stateUnchanged {before : Option CompiledRule} {state : CompiledState}
    (h : stateUnchanged before state = true) :
    ∃ previous, before = some previous ∧ ∃ s ∈ previous.states, s.key = state.key ∧
      s.rateBytesPerS = state.rateBytesPerS ∧ s.burstBytes = state.burstBytes := by
  obtain ⟨s, hf, hs⟩ := (Option.any_eq_true _ _).mp h
  obtain ⟨previous, hb, hf⟩ := Option.bind_eq_some_iff.mp hf
  have hk := List.find?_some hf
  simp only [Bool.and_eq_true, decide_eq_true_eq] at hs hk
  exact ⟨previous, hb, s, List.mem_of_find?_eq_some hf, hk, hs⟩

end CompiledRule

namespace CheckedPolicy

variable (policy : CheckedPolicy) {key : BucketKey}

/-- Two rules of a program that have a state under one key are the same rule. -/
theorem rule_eq_of_stateKey {r r' : CompiledRule} (hr : r ∈ policy.rules)
    (hr' : r' ∈ policy.rules) (hk : key ∈ r.stateKeys) (hk' : key ∈ r'.stateKeys) : r = r' := by
  apply policy.rule_eq_of_id hr hr'
  rw [← (policy.expanded r hr).ruleId_stateKey hk, (policy.expanded r' hr').ruleId_stateKey hk']

theorem allots_unique {p p' : ℕ × ℕ} (h : policy.Allots key p) (h' : policy.Allots key p') :
    p = p' := by
  obtain ⟨r, hr, s, hs, hk, rfl⟩ := h
  obtain ⟨r', hr', s', hs', hk', rfl⟩ := h'
  obtain rfl := policy.rule_eq_of_stateKey hr hr' (CompiledRule.mem_stateKeys.mpr ⟨s, hs, hk⟩)
    (CompiledRule.mem_stateKeys.mpr ⟨s', hs', hk'⟩)
  rw [(policy.expanded r hr).state_inj hs hs' (hk.trans hk'.symm)]

theorem mem_stateSlots {rule : CompiledRule} (hr : rule ∈ policy.rules)
    (hk : key ∈ rule.stateKeys) : key ∈ policy.stateSlots := by
  obtain ⟨direction, hs⟩ := (policy.expanded rule hr).stateKeys_eq
  rw [hs] at hk
  obtain ⟨d, _, rfl⟩ := List.mem_map.mp hk
  refine List.mem_flatMap.mpr ⟨rule, hr, List.mem_map.mpr ⟨d, ?_, rfl⟩⟩
  cases d <;> decide

end CheckedPolicy

theorem CompiledPolicy.Allots.mem_stateSlots {policy : CheckedPolicy} {key : BucketKey}
    {params : ℕ × ℕ} (h : policy.Allots key params) : key ∈ policy.stateSlots := by
  obtain ⟨rule, hr, s, hs, hk, _⟩ := h
  exact policy.mem_stateSlots hr (CompiledRule.mem_stateKeys.mpr ⟨s, hs, hk⟩)

section Stages

variable {previous next : CheckedPolicy} {key : BucketKey} {params : ℕ × ℕ}

theorem mem_puts_stateStage {rule : CompiledRule} :
    (key, params) ∈ (stateStage previous rule).puts ↔ ∃ s ∈ rule.states,
      CompiledRule.stateUnchanged (previous.rule rule.id) s = false ∧ s.key = key ∧
        (s.rateBytesPerS, s.burstBytes) = params := by
  simp [stateStage, CompiledRule.changedStates, and_assoc]

theorem allots_of_mem_puts {stage : Stage BucketKey (ℕ × ℕ)}
    (hs : stage ∈ stateStages previous next) (hp : (key, params) ∈ stage.puts) :
    next.Allots key params := by
  rcases List.mem_cons.mp hs with rfl | hs
  · simp at hp
  · obtain ⟨rule, hr, rfl⟩ := List.mem_map.mp hs
    obtain ⟨s, hsm, _, hk, he⟩ := mem_puts_stateStage.mp hp
    exact ⟨rule, hr, s, hsm, hk, he⟩

/-- The retired rules take no state of a kept rule with them. -/
theorem notMem_retired_stateKeys {rule : CompiledRule} (hr : rule ∈ next.rules)
    (hk : key.ruleId = rule.id) :
    key ∉ retiredStateKeys previous next := by
  intro hm
  obtain ⟨gone, hg, hkg⟩ := List.mem_flatMap.mp hm
  obtain ⟨hp, hn⟩ := mem_retiredRules.mp hg
  have hid := (previous.expanded gone hp).ruleId_stateKey hkg
  exact CompiledPolicy.rule_eq_none.mp hn rule hr (by rw [← hk, hid])

theorem kept_stateStages {rule : CompiledRule} (hr : rule ∈ next.rules)
    (hk : key.ruleId = rule.id) : Kept (stateStages previous next) key := by
  refine kept_cons.mpr ⟨notMem_retired_stateKeys hr hk, fun s hs => ?_⟩
  obtain ⟨r, _, rfl⟩ := List.mem_map.mp hs
  simp [stateStage]

/-- Reconciling neither writes nor removes the state. -/
def StateUntouched (previous next : CompiledPolicy) (key : BucketKey) : Prop :=
  key ∉ retiredStateKeys previous next ∧ ∀ rule ∈ next.rules, key ∉ changedKeys previous rule

theorem untouched_stateStages_iff {previous next : CompiledPolicy} :
    Untouched (stateStages previous next) key ↔ StateUntouched previous next key := by
  rw [stateStages, untouched_cons, StateUntouched]
  have hstage : ∀ rule, (key ∉ (stateStage previous rule).putKeys ∧
      key ∉ (stateStage previous rule).dels) ↔ key ∉ changedKeys previous rule := fun rule => by
    rw [putKeys_stateStage]
    exact and_iff_left List.not_mem_nil
  simp only [Untouched, List.forall_mem_map, hstage]
  exact and_congr_left' (and_iff_right List.not_mem_nil)

theorem mem_changedKeys {rule : CompiledRule} :
    key ∈ changedKeys previous rule ↔ ∃ s ∈ rule.states,
      CompiledRule.stateUnchanged (previous.rule rule.id) s = false ∧ s.key = key := by
  simp [changedKeys, CompiledRule.changedStates, and_assoc]

/-- A state that reconciling does not write is one its rule had already, unchanged. -/
theorem CompiledPolicy.Allots.of_untouched (h : next.Allots key params)
    (hu : StateUntouched previous next key) : previous.Allots key params := by
  obtain ⟨rule, hr, s, hs, hk, rfl⟩ := h
  cases hc : CompiledRule.stateUnchanged (previous.rule rule.id) s with
  | false => exact absurd (mem_changedKeys.mpr ⟨s, hs, hc, hk⟩) (hu.2 rule hr)
  | true =>
    obtain ⟨before, hb, s', hs', hk', hrate, hburst⟩ := CompiledRule.exists_of_stateUnchanged hc
    exact ⟨before, (CompiledPolicy.mem_of_rule hb).1, s', hs', hk'.trans hk, by rw [hrate, hburst]⟩

end Stages

theorem paramsAt_effects_diff (maps : PolicyMaps) (previous next : CompiledPolicy) :
    (maps.effects (diff previous next)).paramsAt =
      replay maps.paramsAt (log (stateStages previous next)) := by
  rw [PolicyMaps.paramsAt_effects, stateWrites_diff]

/-- A state of the next program is in place exactly when reconciling writes it
or it was in place before. -/
theorem paramsAt_effects_diff_of_allots {maps : PolicyMaps} {previous next : CheckedPolicy}
    {key : BucketKey} {params : ℕ × ℕ} (ha : next.Allots key params) :
    (maps.effects (diff previous next)).paramsAt key = some params ↔
      (StateUntouched previous next key → maps.paramsAt key = some params) := by
  have hput : ∀ s ∈ stateStages previous next, ∀ p, (key, p) ∈ s.puts → p = params :=
    fun s hs p hp => next.allots_unique (allots_of_mem_puts hs hp) ha
  have hkept : Kept (stateStages previous next) key := by
    obtain ⟨rule, hr, s, hs, hk, _⟩ := ha
    exact kept_stateStages hr
      ((next.expanded rule hr).ruleId_stateKey (CompiledRule.mem_stateKeys.mpr ⟨s, hs, hk⟩))
  have hgood := exists_good_replay_log_iff (t := maps.paramsAt) hput
  rw [← paramsAt_effects_diff, untouched_stateStages_iff] at hgood
  simp only [exists_eq_right] at hgood
  rw [hgood]
  constructor
  · rintro (hr | ⟨_, hp⟩) hu
    · obtain ⟨ss₁, s, ss₂, hs, hp, _⟩ := hr
      exact absurd hp ((untouched_stateStages_iff.mpr hu) s (by rw [hs]; simp)).1
    · exact hp
  · intro h
    rcases hkept.restored_or_untouched with hr | hu
    · exact Or.inl hr
    · exact Or.inr ⟨untouched_stateStages_iff.mp hu, h (untouched_stateStages_iff.mp hu)⟩

/-- Reconciling puts every state of the next program in place. -/
theorem KeepsAllotted.effects_diff {maps : PolicyMaps} {previous : CheckedPolicy}
    (h : KeepsAllotted maps previous) (next : CheckedPolicy) :
    KeepsAllotted (maps.effects (diff previous next)) next := fun key params ha =>
  (paramsAt_effects_diff_of_allots ha).mpr fun hu => h key params (ha.of_untouched hu)

/-- The states that reconciling does not touch are already those of the next program. -/
def StatesIntact (maps : PolicyMaps) (previous next : CompiledPolicy) : Prop :=
  ∀ key, StateUntouched previous next key →
    ∀ params, maps.paramsAt key = some params ↔ next.Allots key params

/-- Reconciling leaves exactly the states of the next program behind when what
it does not touch is right, and only then. -/
theorem holdsStates_effects_diff_iff {maps : PolicyMaps} {previous next : CheckedPolicy} :
    HoldsStates (maps.effects (diff previous next)) next ↔ StatesIntact maps previous next := by
  constructor
  · intro h key hu params
    rw [← h key params, paramsAt_effects_diff,
      replay_log_of_untouched (untouched_stateStages_iff.mpr hu)]
  · intro h key params
    constructor
    · intro hp
      rw [paramsAt_effects_diff] at hp
      rcases replay_log_eq_some hp with ⟨stage, hs, hput⟩ | ⟨hu, ht⟩
      · exact allots_of_mem_puts hs hput
      · exact (h key (untouched_stateStages_iff.mp hu) params).mp ht
    · intro ha
      exact (paramsAt_effects_diff_of_allots ha).mpr fun hu => (h key hu params).mpr ha

/-- From maps that hold a program, that is the case when no kept rule gives up a direction. -/
theorem HoldsStates.effects_diff_iff {maps : PolicyMaps} {previous : CheckedPolicy}
    (h : HoldsStates maps previous) (next : CheckedPolicy) :
    HoldsStates (maps.effects (diff previous next)) next ↔ KeepsDirections previous next := by
  rw [holdsStates_effects_diff_iff]
  constructor
  · intro hi rule hr before hb key hk
    by_contra hn
    obtain ⟨hbm, hid⟩ := CompiledPolicy.mem_of_rule hb
    have hkid := (previous.expanded before hbm).ruleId_stateKey hk
    have hown : ∀ r ∈ next.rules, key ∉ r.stateKeys := by
      intro r hrm hkr
      have hrid := (next.expanded r hrm).ruleId_stateKey hkr
      obtain rfl := next.rule_eq_of_id hr hrm (by rw [← hrid, hkid, hid])
      exact hn hkr
    have hu : StateUntouched previous next key := by
      refine ⟨notMem_retired_stateKeys hr (hkid.trans hid), fun r hrm hc => ?_⟩
      obtain ⟨s, hs, _, hsk⟩ := mem_changedKeys.mp hc
      exact hown r hrm (CompiledRule.mem_stateKeys.mpr ⟨s, hs, hsk⟩)
    obtain ⟨s, hs, hsk⟩ := CompiledRule.mem_stateKeys.mp hk
    obtain ⟨r, hrm, s', hs', hsk', _⟩ :=
      (hi key hu _).mp ((h key _).mpr ⟨before, hbm, s, hs, hsk, rfl⟩)
    exact hown r hrm (CompiledRule.mem_stateKeys.mpr ⟨s', hs', hsk'⟩)
  · intro hd key hu params
    refine ⟨fun hp => ?_, fun ha => (h key params).mpr (ha.of_untouched hu)⟩
    obtain ⟨before, hb, s, hs, rfl, rfl⟩ := (h _ _).mp hp
    cases hn : next.rule before.id with
    | none =>
      exact absurd (List.mem_flatMap.mpr ⟨before, mem_retiredRules.mpr ⟨hb, hn⟩,
        CompiledRule.mem_stateKeys.mpr ⟨s, hs, rfl⟩⟩) hu.1
    | some rule =>
      obtain ⟨hr, hid⟩ := CompiledPolicy.mem_of_rule hn
      have hprev : previous.rule rule.id = some before := by rw [hid]; exact previous.rule_id hb
      obtain ⟨s', hs', hk'⟩ := CompiledRule.mem_stateKeys.mp
        (hd rule hr before hprev s.key (CompiledRule.mem_stateKeys.mpr ⟨s, hs, rfl⟩))
      have hal : next.Allots s.key (s'.rateBytesPerS, s'.burstBytes) := ⟨rule, hr, s', hs', hk', rfl⟩
      have hpal := hal.of_untouched hu
      rwa [previous.allots_unique hpal ⟨before, hb, s, hs, rfl, rfl⟩] at hal

/-- A program has at most two states for each rule. -/
theorem HoldsStates.card_le {maps : PolicyMaps} {policy : CheckedPolicy}
    (h : HoldsStates maps policy) : maps.states.keys.card ≤ 2 * policy.rules.length := by
  rw [← CompiledPolicy.length_stateSlots]
  refine le_trans (Finset.card_le_card fun key hk => ?_)
    (List.toFinset_card_le policy.stateSlots)
  rw [Finmap.mem_keys, ← PolicyMaps.isSome_paramsAt, Option.isSome_iff_exists] at hk
  obtain ⟨p, hp⟩ := hk
  exact List.mem_toFinset.mpr (((h key p).mp hp).mem_stateSlots)

end ZimaScope
