import ZimaScope.Ebpf.Selection
import ZimaScope.Policy.Executable

/-! # The image of a program

The maps as a fully applied program leaves them: its match entries, its rule
states and its configuration entry. When no two rules share a key, what a
packet selects from an image is determined by the program.
-/

namespace ZimaScope

open Priority

namespace CompiledPolicy

/-- The configuration entry of an applied program. -/
def config (policy : CompiledPolicy) : PolicyConfig :=
  configValue policy.enabled policy.hasAppRules policy.hasEndpointRules
    (UInt32.ofNat (min policy.revision (2 ^ 32 - 1)))

/-- No two rules own a common key. -/
def Unshared (policy : CompiledPolicy) : Prop :=
  ∀ rule ∈ policy.rules, ∀ other ∈ policy.rules, ∀ entry ∈ rule.matchEntries,
    other.Owns entry.key → rule = other

instance (policy : CompiledPolicy) : Decidable policy.Unshared :=
  inferInstanceAs (Decidable (∀ rule ∈ policy.rules, ∀ other ∈ policy.rules,
    ∀ entry ∈ rule.matchEntries, other.Owns entry.key → rule = other))

/-- The reference of the first rule that owns the key. -/
def refAt (policy : CompiledPolicy) (k : MatchKey) : Option RuleRef :=
  (policy.rules.find? fun rule => rule.Owns k).map CompiledRule.ruleRef

theorem refAt_eq_none {policy : CompiledPolicy} {k : MatchKey} :
    policy.refAt k = none ↔ ¬ policy.Owns k := by
  simp [refAt, Owns]

theorem Unshared.refAt_eq_some_iff {policy : CompiledPolicy} (h : policy.Unshared) {k : MatchKey}
    {ref : RuleRef} : policy.refAt k = some ref ↔ policy.Grants k ref := by
  constructor
  · intro hr
    obtain ⟨rule, hf, rfl⟩ := Option.map_eq_some_iff.mp hr
    exact ⟨rule, List.mem_of_find?_eq_some hf, by simpa using List.find?_some hf, rfl⟩
  · rintro ⟨rule, hr, ho, rfl⟩
    cases hf : policy.rules.find? fun rule => rule.Owns k with
    | none => exact absurd ho (by simpa using List.find?_eq_none.mp hf rule hr)
    | some other =>
      obtain ⟨entry, he, rfl⟩ := ho
      have hown : other.Owns entry.key := by simpa using List.find?_some hf
      rw [refAt, hf, h rule hr other (List.mem_of_find?_eq_some hf) entry he hown]
      rfl

end CompiledPolicy

/-- The maps hold a program in full. -/
structure Image (maps : PolicyMaps) (policy : CompiledPolicy) : Prop where
  holdsMatches : HoldsMatches maps policy
  holdsStates : HoldsStates maps policy
  config_eq : maps.config = policy.config

theorem HoldsMatches.matchAt_eq {maps : PolicyMaps} {policy : CompiledPolicy}
    (h : HoldsMatches maps policy) (hu : policy.Unshared) : maps.matchAt = policy.refAt := by
  funext k
  cases hk : maps.matchAt k with
  | none =>
    rw [eq_comm, CompiledPolicy.refAt_eq_none]
    intro ho
    have hh := h.present k ho
    rw [PolicyMaps.Held, hk] at hh
    simp at hh
  | some ref => exact (hu.refAt_eq_some_iff.mpr (h.granted k ref hk)).symm

/-- What a packet selects from an image of a program without shared keys. -/
theorem Image.selectRule_eq {maps : PolicyMaps} {policy : CompiledPolicy} (h : Image maps policy)
    (hu : policy.Unshared) (owners : OwnerMaps) (flow : ParsedFlow) (direction : Direction) :
    selectRule maps owners flow direction =
      first policy.refAt (candidates policy.config owners flow direction) := by
  rw [selectRule_eq_first, h.holdsMatches.matchAt_eq hu, h.config_eq]

section Config

variable {maps : PolicyMaps} {ops : List PolicyOp}

/-- The operation writes the configuration entry. -/
def PolicyOp.isConfig : PolicyOp → Bool
  | .setEnabled .. => true
  | _ => false

theorem config_effect {op : PolicyOp} (h : op.isConfig = false) :
    (maps.effect op).config = maps.config := by
  cases op with
  | setEnabled => simp [PolicyOp.isConfig] at h
  | upsertState | removeState => rfl
  | upsertMatch entry ref | removeMatch entry => cases entry <;> rfl

theorem config_effects (h : ∀ op ∈ ops, op.isConfig = false) :
    (maps.effects ops).config = maps.config := by
  induction ops generalizing maps with
  | nil => rfl
  | cons op ops ih =>
    rw [PolicyMaps.effects_cons, ih fun op hop => h op (List.mem_cons_of_mem _ hop),
      config_effect (h op List.mem_cons_self)]

theorem isConfig_removeOps (rule : CompiledRule) : ∀ op ∈ rule.removeOps, op.isConfig = false := by
  intro op hop
  simp only [CompiledRule.removeOps, List.mem_append, List.mem_map] at hop
  rcases hop with ⟨_, _, rfl⟩ | ⟨_, _, rfl⟩ <;> rfl

theorem isConfig_reconcileOps (before : Option CompiledRule) (rule : CompiledRule) :
    ∀ op ∈ rule.reconcileOps before, op.isConfig = false := by
  intro op hop
  simp only [CompiledRule.reconcileOps, List.mem_append, List.mem_map] at hop
  rcases hop with (⟨_, _, rfl⟩ | ⟨_, _, rfl⟩) | ⟨_, _, rfl⟩ <;> rfl

/-- A reconciliation leaves the configuration entry of the next program. -/
theorem config_effects_diff (maps : PolicyMaps) (previous next : CompiledPolicy) :
    (maps.effects (diff previous next)).config = next.config := by
  have hbody : ∀ op ∈ (retiredRules previous next).flatMap CompiledRule.removeOps ++
      next.rules.flatMap (fun rule => rule.reconcileOps (previous.rule rule.id)),
      op.isConfig = false := by
    intro op hop
    rcases List.mem_append.mp hop with hop | hop
    · obtain ⟨rule, _, hop⟩ := List.mem_flatMap.mp hop
      exact isConfig_removeOps rule op hop
    · obtain ⟨rule, _, hop⟩ := List.mem_flatMap.mp hop
      exact isConfig_reconcileOps _ rule op hop
  unfold diff
  simp only
  rw [List.append_assoc _ _ (next.rules.flatMap _), PolicyMaps.effects_append,
    PolicyMaps.effects_append]
  cases hn : next.enabled with
  | true =>
    simp only [Bool.true_or, if_pos]
    simp [CompiledPolicy.configOp, PolicyMaps.effect, CompiledPolicy.config, hn]
  | false =>
    cases hp : previous.enabled with
    | true =>
      simp only [Bool.not_false, Bool.and_self, Bool.not_true, Bool.or_self, Bool.false_eq_true,
        if_true, if_false, PolicyMaps.effects_nil]
      rw [config_effects hbody]
      simp [CompiledPolicy.configOp, PolicyMaps.effect, CompiledPolicy.config, hn]
    | false =>
      simp [CompiledPolicy.configOp, PolicyMaps.effect, CompiledPolicy.config, hn]

end Config

/-- Installing a program from empty maps leaves its image. -/
theorem image_install (policy : CheckedPolicy) :
    Image (PolicyMaps.empty.effects (diff CheckedPolicy.initial policy)) policy :=
  ⟨holdsMatches_install policy, holdsStates_install policy, config_effects_diff _ _ _⟩

end ZimaScope
