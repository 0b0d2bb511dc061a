import ZimaScope.Collector.Apply

/-! # Reconciled match maps

What a reconciliation leaves in the match maps. An entry never outlives the
rules that own it; whether every entry of the next program is there depends on
the order in which rules give up and take over a key they share.
-/

namespace ZimaScope

open WriteLog

namespace CompiledPolicy

/-- Some rule of the policy owns the key. -/
def Owns (policy : CompiledPolicy) (k : MatchKey) : Prop := ∃ rule ∈ policy.rules, rule.Owns k

/-- The reference is that of a rule of the policy that owns the key. -/
def Grants (policy : CompiledPolicy) (k : MatchKey) (ref : RuleRef) : Prop :=
  ∃ rule ∈ policy.rules, rule.Owns k ∧ rule.ruleRef = ref

instance (policy : CompiledPolicy) (k : MatchKey) : Decidable (policy.Owns k) :=
  inferInstanceAs (Decidable (∃ rule ∈ policy.rules, rule.Owns k))

end CompiledPolicy

/-- Every entry of the match maps is one that a rule of the policy owns. -/
def GrantedMatches (maps : PolicyMaps) (policy : CompiledPolicy) : Prop :=
  ∀ k ref, maps.matchAt k = some ref → policy.Grants k ref

/-- The match maps hold exactly the entries of a program. -/
structure HoldsMatches (maps : PolicyMaps) (policy : CompiledPolicy) : Prop where
  granted : GrantedMatches maps policy
  present : ∀ k, policy.Owns k → maps.Held k

/-- Every key of the next program that reconciling removes is written by a later rule. -/
structure Reinstates (previous next : CompiledPolicy) : Prop where
  retired : ∀ k ∈ retiredKeys previous next, next.Owns k →
    ∃ later ∈ next.rules, k ∈ installedKeys previous later
  dropped : ∀ rs₁ rule rs₂, next.rules = rs₁ ++ rule :: rs₂ →
    ∀ k ∈ droppedKeys previous rule, next.Owns k →
      ∃ later ∈ rs₂, k ∈ installedKeys previous later

/-- Reconciling neither writes nor removes the key. -/
def MatchUntouched (previous next : CompiledPolicy) (k : MatchKey) : Prop :=
  k ∉ retiredKeys previous next ∧
    ∀ rule ∈ next.rules, k ∉ installedKeys previous rule ∧ k ∉ droppedKeys previous rule

/-- The entries that reconciling does not touch are already those of the next program. -/
def MatchesIntact (maps : PolicyMaps) (previous next : CompiledPolicy) : Prop :=
  ∀ k, MatchUntouched previous next k →
    (next.Owns k → maps.Held k) ∧ ∀ ref, maps.matchAt k = some ref → next.Grants k ref

theorem CompiledRule.owns_iff {rule : CompiledRule} {k : MatchKey} :
    rule.Owns k ↔ k ∈ rule.matchKeys := by
  simp [Owns, matchKeys]

section Stages

variable {previous next : CompiledPolicy} {k : MatchKey}

theorem mem_retiredKeys :
    k ∈ retiredKeys previous next ↔ ∃ rule ∈ retiredRules previous next, rule.Owns k := by
  simp [retiredKeys, CompiledRule.owns_iff]

theorem mem_installedKeys {rule : CompiledRule} :
    k ∈ installedKeys previous rule ↔ ∃ entry ∈ rule.matchEntries,
      CompiledRule.matchUnchanged (previous.rule rule.id) rule entry = false ∧ entry.key = k := by
  simp [installedKeys, CompiledRule.installedEntries, and_assoc]

theorem mem_droppedKeys {rule : CompiledRule} :
    k ∈ droppedKeys previous rule ↔ ∃ before, previous.rule rule.id = some before ∧
      ∃ entry ∈ before.matchEntries, entry ∉ rule.matchEntries ∧ entry.key = k := by
  unfold droppedKeys
  cases previous.rule rule.id with
  | none => simp [CompiledRule.droppedEntries]
  | some before => simp [CompiledRule.droppedEntries, and_assoc]

theorem owns_of_mem_installedKeys {rule : CompiledRule} (h : k ∈ installedKeys previous rule) :
    rule.Owns k := by
  obtain ⟨entry, he, _, hk⟩ := mem_installedKeys.mp h
  exact ⟨entry, he, hk⟩

/-- A rule installs each of its keys unless its previous version owned it. -/
theorem CompiledRule.Owns.installed_or_owns {rule : CompiledRule} (h : rule.Owns k) :
    k ∈ installedKeys previous rule ∨ previous.Owns k := by
  obtain ⟨entry, he, hk⟩ := h
  cases hu : CompiledRule.matchUnchanged (previous.rule rule.id) rule entry with
  | false => exact Or.inl (mem_installedKeys.mpr ⟨entry, he, hu, hk⟩)
  | true =>
    right
    obtain ⟨before, hb, hm⟩ := (Option.any_eq_true _ _).mp hu
    simp only [Bool.and_eq_true, decide_eq_true_eq] at hm
    exact ⟨before, (CompiledPolicy.mem_of_rule hb).1, entry, hm.2, hk⟩

theorem grants_of_mem_puts {stage : Stage MatchKey RuleRef} {ref : RuleRef}
    (hs : stage ∈ matchStages previous next) (hp : (k, ref) ∈ stage.puts) :
    next.Grants k ref := by
  rcases List.mem_cons.mp hs with rfl | hs
  · simp at hp
  · obtain ⟨rule, hr, rfl⟩ := List.mem_map.mp hs
    simp only [matchStage, List.mem_map, Prod.mk.injEq] at hp
    obtain ⟨_, hk, rfl, rfl⟩ := hp
    exact ⟨rule, hr, owns_of_mem_installedKeys hk, rfl⟩

theorem untouched_matchStages_iff :
    Untouched (matchStages previous next) k ↔ MatchUntouched previous next k := by
  rw [matchStages, untouched_cons, MatchUntouched]
  simp [Untouched, Stage.putKeys, matchStage]

/-- A key that reconciling does not write keeps its owner, with the same reference. -/
theorem CompiledPolicy.Grants.of_untouched {previous : CheckedPolicy} {ref : RuleRef}
    (h : previous.Grants k ref) (hu : MatchUntouched previous next k) :
    next.Grants k ref := by
  obtain ⟨before, hb, ⟨entry, he, hk⟩, rfl⟩ := h
  obtain ⟨hret, hrest⟩ := hu
  cases hn : next.rule before.id with
  | none =>
    exact absurd (mem_retiredKeys.mpr ⟨before, mem_retiredRules.mpr ⟨hb, hn⟩, entry, he, hk⟩) hret
  | some rule =>
    obtain ⟨hr, hid⟩ := CompiledPolicy.mem_of_rule hn
    have hprev : previous.rule rule.id = some before := by rw [hid]; exact previous.rule_id hb
    obtain ⟨hput, hdel⟩ := hrest rule hr
    have hm : entry ∈ rule.matchEntries := by
      by_contra hm
      exact hdel (mem_droppedKeys.mpr ⟨before, hprev, entry, he, hm, hk⟩)
    have ha : CompiledRule.matchUnchanged (some before) rule entry = true := by
      by_contra ha
      rw [← hprev] at ha
      exact hput (mem_installedKeys.mpr ⟨entry, hm, by simpa using ha, hk⟩)
    simp only [CompiledRule.matchUnchanged, Option.any_some, Bool.and_eq_true,
      decide_eq_true_eq] at ha
    exact ⟨rule, hr, ⟨entry, hm, hk⟩, by simp [CompiledRule.ruleRef, hid, ha.1]⟩

/-- A key of the next program that nothing puts was owned before. -/
theorem CompiledPolicy.Owns.of_untouched (h : next.Owns k)
    (hu : MatchUntouched previous next k) : previous.Owns k := by
  obtain ⟨rule, hr, ho⟩ := h
  rcases ho.installed_or_owns with hi | hp
  · exact absurd hi (hu.2 rule hr).1
  · exact hp

theorem reinstates_iff :
    Reinstates previous next ↔ ∀ k, next.Owns k →
      Restored (matchStages previous next) k ∨ Kept (matchStages previous next) k := by
  simp only [restored_or_kept_iff, matchStages]
  constructor
  · rintro ⟨hret, hdrop⟩ k ho ss₁ s ss₂ hss hd
    rcases List.cons_eq_append_iff.mp hss with ⟨rfl, he⟩ | ⟨ss₁', rfl, he⟩
    · obtain ⟨rfl, rfl⟩ := List.cons.inj he
      obtain ⟨later, hl, hi⟩ := hret k hd ho
      exact ⟨_, List.mem_map_of_mem hl, by rwa [putKeys_matchStage]⟩
    · obtain ⟨rs₁, rs, hrs, rfl, hcons⟩ := List.map_eq_append_iff.mp he
      obtain ⟨rule, rs₂, rfl, rfl, rfl⟩ := List.map_eq_cons_iff.mp hcons
      obtain ⟨later, hl, hi⟩ := hdrop rs₁ rule rs₂ hrs k hd ho
      exact ⟨_, List.mem_map_of_mem hl, by rwa [putKeys_matchStage]⟩
  · intro h
    constructor
    · intro k hk ho
      obtain ⟨s, hs, hp⟩ := h k ho [] _ _ rfl hk
      obtain ⟨later, hl, rfl⟩ := List.mem_map.mp hs
      exact ⟨later, hl, by rwa [putKeys_matchStage] at hp⟩
    · intro rs₁ rule rs₂ hrs k hk ho
      obtain ⟨s, hs, hp⟩ := h k ho (_ :: rs₁.map (matchStage previous)) (matchStage previous rule)
        (rs₂.map (matchStage previous)) (by rw [hrs, List.map_append]; rfl) hk
      obtain ⟨later, hl, rfl⟩ := List.mem_map.mp hs
      exact ⟨later, hl, by rwa [putKeys_matchStage] at hp⟩

end Stages

theorem matchAt_effects_diff (maps : PolicyMaps) (previous next : CompiledPolicy) :
    (maps.effects (diff previous next)).matchAt =
      replay maps.matchAt (log (matchStages previous next)) := by
  rw [PolicyMaps.matchAt_effects, matchWrites_diff]

/-- Reconciling leaves no entry that the next program does not own. -/
theorem GrantedMatches.effects_diff {maps : PolicyMaps} {previous : CheckedPolicy}
    (h : GrantedMatches maps previous) (next : CompiledPolicy) :
    GrantedMatches (maps.effects (diff previous next)) next := by
  intro k ref hk
  rw [matchAt_effects_diff] at hk
  rcases replay_log_eq_some hk with ⟨stage, hs, hp⟩ | ⟨hu, ht⟩
  · exact grants_of_mem_puts hs hp
  · exact (h k ref ht).of_untouched (untouched_matchStages_iff.mp hu)

/-- Reconciling leaves exactly the next program behind when it reinstates what
it removes and what it does not touch is right, and only then. -/
theorem holdsMatches_effects_diff_iff {maps : PolicyMaps} {previous next : CompiledPolicy} :
    HoldsMatches (maps.effects (diff previous next)) next ↔
      Reinstates previous next ∧ MatchesIntact maps previous next := by
  have heq : ∀ k, MatchUntouched previous next k →
      (maps.effects (diff previous next)).matchAt k = maps.matchAt k := fun k hu => by
    rw [matchAt_effects_diff, replay_log_of_untouched (untouched_matchStages_iff.mpr hu)]
  have hheld : ∀ k, (maps.effects (diff previous next)).Held k ↔
      Present maps.matchAt (matchStages previous next) k := fun k => by
    rw [PolicyMaps.Held, matchAt_effects_diff, isSome_replay_log]
  rw [reinstates_iff]
  constructor
  · rintro ⟨hg, hp⟩
    refine ⟨fun k ho => ?_, fun k hu => ⟨fun ho => ?_, fun ref hr => ?_⟩⟩
    · rcases (hheld k).mp (hp k ho) with hr | ⟨hk, _⟩
      · exact Or.inl hr
      · exact Or.inr hk
    · have hk := hp k ho
      rwa [PolicyMaps.Held, heq k hu] at hk
    · exact hg k ref (by rw [heq k hu, hr])
  · rintro ⟨hre, hin⟩
    constructor
    · intro k ref hk
      rw [matchAt_effects_diff] at hk
      rcases replay_log_eq_some hk with ⟨stage, hs, hp⟩ | ⟨hu, ht⟩
      · exact grants_of_mem_puts hs hp
      · exact (hin k (untouched_matchStages_iff.mp hu)).2 ref ht
    · intro k ho
      rw [hheld]
      rcases hre k ho with hr | hk
      · exact Or.inl hr
      · rcases hk.restored_or_untouched with hr | hu
        · exact Or.inl hr
        · exact Or.inr ⟨hk, (hin k (untouched_matchStages_iff.mp hu)).1 ho⟩

theorem HoldsMatches.effects_diff_iff {maps : PolicyMaps} {previous : CheckedPolicy}
    (h : HoldsMatches maps previous) (next : CompiledPolicy) :
    HoldsMatches (maps.effects (diff previous next)) next ↔ Reinstates previous next := by
  rw [holdsMatches_effects_diff_iff]
  refine and_iff_left fun k hu => ⟨fun ho => ?_, fun ref hr => ?_⟩
  · exact h.present k (ho.of_untouched hu)
  · exact (h.granted k ref hr).of_untouched hu

/-- No rule gives up a key that the next program owns. -/
def Undisturbed (previous next : CompiledPolicy) : Prop :=
  ∀ k, next.Owns k → k ∉ retiredKeys previous next ∧
    ∀ rule ∈ next.rules, k ∉ droppedKeys previous rule

theorem removes_iff {previous next : CompiledPolicy} {k : MatchKey} :
    (∃ op ∈ diff previous next, op.matchWrite = some (.del k)) ↔
      k ∈ retiredKeys previous next ∨ ∃ rule ∈ next.rules, k ∈ droppedKeys previous rule := by
  have hm : (∃ op ∈ diff previous next, op.matchWrite = some (.del k)) ↔
      .del k ∈ matchWrites (diff previous next) := by
    simp [matchWrites, List.mem_filterMap]
  rw [hm, matchWrites_diff, del_mem_log]
  simp [matchStages, matchStage]

/-- Reconciling maps that hold a program makes them hold the next one exactly
when every key it removes is reinstated, and removes no key of the next program
exactly when no rule gives one up. -/
theorem diff_refines_iff {maps : PolicyMaps} {previous : CheckedPolicy}
    (h : HoldsMatches maps previous) (next : CheckedPolicy) :
    (HoldsMatches (maps.effects (diff previous next)) next ↔ Reinstates previous next) ∧
      ((∀ op ∈ diff previous next, ∀ k, op.matchWrite = some (.del k) → ¬ next.Owns k) ↔
        Undisturbed previous next) := by
  refine ⟨h.effects_diff_iff next, ?_⟩
  constructor
  · intro hn k ho
    have hk : ¬ ∃ op ∈ diff previous next, op.matchWrite = some (.del k) :=
      fun ⟨op, hop, hd⟩ => hn op hop k hd ho
    rw [removes_iff] at hk
    simpa using hk
  · intro hn op hop k hd ho
    obtain ⟨hret, hdrop⟩ := hn k ho
    rcases removes_iff.mp ⟨op, hop, hd⟩ with hk | ⟨rule, hr, hk⟩
    · exact hret hk
    · exact hdrop rule hr hk

/-- Installing a program from empty maps always works out. -/
theorem holdsMatches_install (policy : CompiledPolicy) :
    HoldsMatches (PolicyMaps.empty.effects (diff CheckedPolicy.initial policy)) policy := by
  have hempty : HoldsMatches PolicyMaps.empty CheckedPolicy.initial := by
    refine ⟨fun k ref h => by simp at h, ?_⟩
    rintro k ⟨rule, hr, _⟩
    simp at hr
  refine (hempty.effects_diff_iff policy).mpr ⟨?_, ?_⟩
  · intro k hk
    obtain ⟨rule, hr, _⟩ := mem_retiredKeys.mp hk
    simp [mem_retiredRules] at hr
  · intro _ rule _ _ k hk
    obtain ⟨before, hb, _⟩ := mem_droppedKeys.mp hk
    simp [CompiledPolicy.rule] at hb

/-- Two rules on two addresses, and the same rules with their addresses exchanged. -/
def exchangeBefore : CheckedPolicy :=
  .ofResolved [⟨1, .block, .outbound, [.endpoint (.new 203 0 113 1) none]⟩,
    ⟨2, .block, .outbound, [.endpoint (.new 203 0 113 2) none]⟩]
    (by decide) (by decide) (by decide)

def exchangeAfter : CheckedPolicy :=
  .ofResolved [⟨1, .block, .outbound, [.endpoint (.new 203 0 113 2) none]⟩,
    ⟨2, .block, .outbound, [.endpoint (.new 203 0 113 1) none]⟩]
    (by decide) (by decide) (by decide)

theorem diff_refines_exchange :
    (HoldsMatches ((PolicyMaps.empty.effects (diff CheckedPolicy.initial exchangeBefore)).effects
        (diff exchangeBefore exchangeAfter)) exchangeAfter ↔
      Reinstates exchangeBefore exchangeAfter) ∧
    ((∀ op ∈ diff exchangeBefore exchangeAfter, ∀ k, op.matchWrite = some (.del k) →
        ¬ exchangeAfter.Owns k) ↔ Undisturbed exchangeBefore exchangeAfter) :=
  diff_refines_iff (holdsMatches_install exchangeBefore) exchangeAfter

/-- The second rule removes the entry the first one has just taken over. -/
theorem diff_loses_exchanged_entry :
    HoldsMatches (PolicyMaps.empty.effects (diff CheckedPolicy.initial exchangeBefore))
        exchangeBefore ∧
      ¬ HoldsMatches ((PolicyMaps.empty.effects (diff CheckedPolicy.initial exchangeBefore)).effects
        (diff exchangeBefore exchangeAfter)) exchangeAfter := by
  refine ⟨holdsMatches_install exchangeBefore, fun h => ?_⟩
  have hp := h.present (.endpointExact .outbound ⟨ipv4Storage ⟨#v[203, 0, 113, 2]⟩, 0⟩) (by decide)
  revert hp
  decide

end ZimaScope
