import ZimaScope.Collector.StateRuns
import ZimaScope.Ebpf.Selection
import ZimaScope.Lib.Along
import ZimaScope.Policy.Reconcile

/-! # Rule references

Every match entry refers to a rule state of its direction, at every point of
every reconciliation. Retiring a rule takes its entries away before its states,
and reconciling a rule puts its states in place before its entries.
-/

namespace ZimaScope

open WriteLog CollectorCore

/-- Every match entry refers to a rule state of its direction. -/
def NoDangling (maps : PolicyMaps) : Prop :=
  ∀ k ref, maps.matchAt k = some ref → ⟨ref.ruleId, k.direction.toU8⟩ ∈ maps.states

section Effects

variable {maps : PolicyMaps} {key key' : BucketKey} {k : MatchKey} {ref : RuleRef}

@[simp] theorem states_effect_upsertMatch (entry : MatchEntry) (ref : RuleRef) :
    (maps.effect (.upsertMatch entry ref)).states = maps.states := by
  cases entry <;> rfl

@[simp] theorem states_effect_removeMatch (entry : MatchEntry) :
    (maps.effect (.removeMatch entry)).states = maps.states := by
  cases entry <;> rfl

theorem mem_states_effect_upsertState {rate burst : ℕ} :
    key ∈ (maps.effect (.upsertState key' rate burst)).states ↔ key = key' ∨ key ∈ maps.states := by
  simp [PolicyMaps.effect]

theorem mem_states_effect_removeState :
    key ∈ (maps.effect (.removeState key')).states ↔ key ≠ key' ∧ key ∈ maps.states := by
  simp [PolicyMaps.effect]

theorem matchAt_effect_removeMatch {entry : MatchEntry}
    (h : (maps.effect (.removeMatch entry)).matchAt k = some ref) : maps.matchAt k = some ref := by
  rw [PolicyMaps.effect, PolicyMaps.matchAt_delMatch, Function.update_apply] at h
  split at h
  · simp at h
  · exact h

theorem matchAt_effect_upsertMatch {entry : MatchEntry} {value : RuleRef}
    (h : (maps.effect (.upsertMatch entry value)).matchAt k = some ref) :
    (k = entry.key ∧ value = ref) ∨ maps.matchAt k = some ref := by
  rw [PolicyMaps.effect, PolicyMaps.matchAt_putMatch, Function.update_apply] at h
  split at h
  · next hk => exact Or.inl ⟨hk, Option.some.inj h⟩
  · exact Or.inr h

/-- An operation that adds no entry and removes no state keeps every reference. -/
theorem NoDangling.effect {op : PolicyOp} (h : NoDangling maps)
    (hm : ∀ k ref, (maps.effect op).matchAt k = some ref → maps.matchAt k = some ref)
    (hs : ∀ key ∈ maps.states, key ∈ (maps.effect op).states) : NoDangling (maps.effect op) :=
  fun k ref hk => hs _ (h k ref (hm k ref hk))

end Effects

section Phases

variable {previous next : CheckedPolicy}

/-- The states of the next program that reconciling leaves as they are. -/
def UnchangedHeld (previous next : CompiledPolicy) (maps : PolicyMaps) : Prop :=
  ∀ rule ∈ next.rules, ∀ s ∈ rule.states,
    CompiledRule.stateUnchanged (previous.rule rule.id) s = true → s.key ∈ maps.states

/-- The invariant while rules are retired. -/
structure Retiring (previous next : CompiledPolicy) (maps : PolicyMaps) : Prop where
  granted : GrantedMatches maps previous
  refs : NoDangling maps
  unchanged : UnchangedHeld previous next maps

/-- The invariant while rules are reconciled. -/
structure Reconciling (previous next : CompiledPolicy) (maps : PolicyMaps) : Prop where
  refs : NoDangling maps
  unchanged : UnchangedHeld previous next maps

theorem Retiring.removeMatch {maps : PolicyMaps} (h : Retiring previous next maps)
    (entry : MatchEntry) : Retiring previous next (maps.effect (.removeMatch entry)) where
  granted k ref hk := h.granted k ref (matchAt_effect_removeMatch hk)
  refs := h.refs.effect (fun _ _ => matchAt_effect_removeMatch) (by simp)
  unchanged := by simpa [UnchangedHeld] using h.unchanged

/-- Once its entries are gone, a retired rule is referred to no more. -/
theorem Retiring.ruleId_ne {maps : PolicyMaps} {rule : CompiledRule}
    (h : Retiring previous next maps) (hr : rule ∈ previous.rules) {k : MatchKey} {ref : RuleRef}
    (hk : (maps.effects (rule.matchEntries.map .removeMatch)).matchAt k = some ref) :
    ref.ruleId ≠ rule.id := by
  intro hid
  have hw : matchWrites (rule.matchEntries.map .removeMatch) = rule.matchKeys.map .del := by
    simp [matchWrites, CompiledRule.matchKeys, List.filterMap_map, Function.comp_def,
      PolicyOp.matchWrite]
  rw [PolicyMaps.matchAt_effects, hw, replay_dels] at hk
  split at hk
  · simp at hk
  · next hn =>
    obtain ⟨owner, ho, hown, rfl⟩ := h.granted k ref hk
    rw [previous.rule_eq_of_id ho hr hid] at hown
    exact hn (CompiledRule.owns_iff.mp hown)

theorem Retiring.along_removeOps {maps : PolicyMaps} (h : Retiring previous next maps)
    {rule : CompiledRule} (hr : rule ∈ retiredRules previous next) :
    Along PolicyMaps.effect (Retiring previous next) maps rule.removeOps := by
  obtain ⟨hp, hn⟩ := mem_retiredRules.mp hr
  have hentries : Along PolicyMaps.effect (Retiring previous next) maps
      (rule.matchEntries.map .removeMatch) := by
    refine .of_step h fun s op hop hs => ?_
    obtain ⟨entry, _, rfl⟩ := List.mem_map.mp hop
    exact hs.removeMatch entry
  refine Along.append_iff.mpr ⟨hentries, ?_⟩
  have hgone : ∀ k ref, (maps.effects (rule.matchEntries.map .removeMatch)).matchAt k = some ref →
      ref.ruleId ≠ rule.id := fun k ref hk => h.ruleId_ne hp hk
  refine Along.mono (P := fun s => Retiring previous next s ∧
    ∀ k ref, s.matchAt k = some ref → ref.ruleId ≠ rule.id) ?_ fun s hs => hs.1
  refine .of_step ⟨hentries.last, hgone⟩ fun s op hop ⟨hs, hids⟩ => ?_
  obtain ⟨key, hkey, rfl⟩ := List.mem_map.mp hop
  have hid := (previous.expanded rule hp).ruleId_stateKey hkey
  have hm : (s.effect (.removeState key)).matchAt = s.matchAt :=
    PolicyMaps.matchAt_effect_of_matchWrite_none rfl
  refine ⟨⟨fun k ref hk => hs.granted k ref (by rwa [hm] at hk), fun k ref hk => ?_,
    fun r hrm st hst hu => ?_⟩, by rwa [hm]⟩
  · rw [hm] at hk
    refine mem_states_effect_removeState.mpr ⟨?_, hs.refs k ref hk⟩
    rintro rfl
    exact hids k ref hk hid
  · refine mem_states_effect_removeState.mpr ⟨?_, hs.unchanged r hrm st hst hu⟩
    rintro rfl
    have hid' := (next.expanded r hrm).ruleId_stateKey (CompiledRule.mem_stateKeys.mpr ⟨st, hst, rfl⟩)
    exact CompiledPolicy.rule_eq_none.mp hn r hrm (by rw [← hid', hid])

/-- The writes of the states of one rule. -/
def stateOps (previous : CompiledPolicy) (rule : CompiledRule) : List PolicyOp :=
  (rule.changedStates (previous.rule rule.id)).map fun s =>
    .upsertState s.key s.rateBytesPerS s.burstBytes

theorem Reconciling.along_stateOps {maps : PolicyMaps} (h : Reconciling previous next maps)
    (rule : CompiledRule) :
    Along PolicyMaps.effect (Reconciling previous next) maps (stateOps previous rule) := by
  refine .of_step h fun s op hop hs => ?_
  obtain ⟨st, _, rfl⟩ := List.mem_map.mp hop
  have hgrow : ∀ key ∈ s.states,
      key ∈ (s.effect (.upsertState st.key st.rateBytesPerS st.burstBytes)).states :=
    fun key hk => mem_states_effect_upsertState.mpr (Or.inr hk)
  refine ⟨hs.refs.effect (fun k ref hk => ?_) hgrow,
    fun r hrm st hst hu => hgrow _ (hs.unchanged r hrm st hst hu)⟩
  rwa [PolicyMaps.matchAt_effect_of_matchWrite_none rfl] at hk

/-- With the states of a rule written, all of them are in place. -/
theorem Reconciling.stateKeys_held {maps : PolicyMaps} (h : Reconciling previous next maps)
    {rule : CompiledRule} (hr : rule ∈ next.rules) {key : BucketKey} (hk : key ∈ rule.stateKeys) :
    key ∈ (maps.effects (stateOps previous rule)).states := by
  obtain ⟨s, hs, rfl⟩ := CompiledRule.mem_stateKeys.mp hk
  have hw : stateWrites (stateOps previous rule) =
      ((rule.changedStates (previous.rule rule.id)).map fun s =>
        (s.key, (s.rateBytesPerS, s.burstBytes))).map fun p => .put p.1 p.2 := by
    simp [stateWrites, stateOps, List.filterMap_map, Function.comp_def, PolicyOp.stateWrite]
  rw [← PolicyMaps.isSome_paramsAt, PolicyMaps.paramsAt_effects, hw, replay_puts_isSome,
    PolicyMaps.isSome_paramsAt]
  cases hu : CompiledRule.stateUnchanged (previous.rule rule.id) s with
  | true => exact Or.inr (h.unchanged rule hr s hs hu)
  | false =>
    left
    simp only [List.map_map, List.mem_map, Function.comp_apply]
    exact ⟨s, List.mem_filter.mpr ⟨hs, by simp [hu]⟩, rfl⟩

theorem Reconciling.upsertMatch {maps : PolicyMaps} (h : Reconciling previous next maps)
    {rule : CompiledRule} (hr : rule ∈ next.rules) (hk : ∀ key ∈ rule.stateKeys, key ∈ maps.states)
    {entry : MatchEntry} (he : entry ∈ rule.matchEntries) :
    Reconciling previous next (maps.effect (.upsertMatch entry rule.ruleRef)) := by
  refine ⟨fun k ref hk' => ?_, by simpa [UnchangedHeld] using h.unchanged⟩
  rw [states_effect_upsertMatch]
  rcases matchAt_effect_upsertMatch hk' with ⟨rfl, rfl⟩ | hold
  · obtain ⟨direction, rates, hs, hd⟩ := next.expanded rule hr
    refine hk _ (CompiledRule.mem_stateKeys.mpr ?_)
    rw [hs]
    exact ⟨_, List.mem_map_of_mem (hd entry he), rfl⟩
  · exact h.refs k ref hold

theorem Reconciling.removeMatch {maps : PolicyMaps} (h : Reconciling previous next maps)
    (entry : MatchEntry) : Reconciling previous next (maps.effect (.removeMatch entry)) where
  refs := h.refs.effect (fun _ _ => matchAt_effect_removeMatch) (by simp)
  unchanged := by simpa [UnchangedHeld] using h.unchanged

theorem Reconciling.along_reconcileOps {maps : PolicyMaps} (h : Reconciling previous next maps)
    {rule : CompiledRule} (hr : rule ∈ next.rules) :
    Along PolicyMaps.effect (Reconciling previous next) maps
      (rule.reconcileOps (previous.rule rule.id)) := by
  have hstates := h.along_stateOps rule
  have hinstalls : Along PolicyMaps.effect (Reconciling previous next)
      (maps.effects (stateOps previous rule))
      ((rule.installedEntries (previous.rule rule.id)).map
        fun entry => .upsertMatch entry rule.ruleRef) := by
    refine Along.mono (P := fun s => Reconciling previous next s ∧
      ∀ key ∈ rule.stateKeys, key ∈ s.states) ?_ fun s hs => hs.1
    refine .of_step ⟨hstates.last, fun key hk => h.stateKeys_held hr hk⟩ ?_
    rintro s op hop ⟨hs, hkeys⟩
    obtain ⟨entry, he, rfl⟩ := List.mem_map.mp hop
    exact ⟨hs.upsertMatch hr hkeys (List.mem_filter.mp he).1, by simpa using hkeys⟩
  unfold CompiledRule.reconcileOps
  refine Along.append_iff.mpr ⟨Along.append_iff.mpr ⟨hstates, hinstalls⟩, ?_⟩
  refine .of_step (Along.append_iff.mpr ⟨hstates, hinstalls⟩).last fun s op hop hs => ?_
  obtain ⟨entry, _, rfl⟩ := List.mem_map.mp hop
  exact hs.removeMatch entry

theorem NoDangling.setEnabled {maps : PolicyMaps} (h : NoDangling maps) (policy : CompiledPolicy)
    (enabled : Bool) : NoDangling (maps.effect (policy.configOp enabled)) := by
  refine h.effect (fun k ref hk => ?_) fun key hk => hk
  rwa [PolicyMaps.matchAt_effect_of_matchWrite_none rfl] at hk

theorem noDangling_of_granted {maps : PolicyMaps} (hg : GrantedMatches maps previous)
    (hs : KeepsAllotted maps previous) : NoDangling maps := by
  intro k ref hk
  obtain ⟨rule, hr, ⟨entry, he, rfl⟩, rfl⟩ := hg k ref hk
  obtain ⟨direction, rates, hst, hd⟩ := previous.expanded rule hr
  have hal : previous.Allots ⟨rule.id, entry.key.direction.toU8⟩ rates :=
    ⟨rule, hr, _, by rw [hst]; exact List.mem_map_of_mem (hd entry he), rfl, rfl⟩
  rw [← PolicyMaps.isSome_paramsAt]
  exact (hs _ _ hal) ▸ rfl

/-- No reference dangles at any point of a reconciliation. -/
theorem noDangling_along_diff {maps : PolicyMaps} (hg : GrantedMatches maps previous)
    (hs : KeepsAllotted maps previous) (next : CheckedPolicy) :
    Along PolicyMaps.effect NoDangling maps (diff previous next) := by
  have hrefs := noDangling_of_granted hg hs
  have hunchanged : UnchangedHeld previous next maps := by
    intro rule _ s _ hu
    obtain ⟨before, hb, s', hs', hk, _⟩ := CompiledRule.exists_of_stateUnchanged hu
    have hal : previous.Allots s.key (s'.rateBytesPerS, s'.burstBytes) :=
      ⟨before, (CompiledPolicy.mem_of_rule hb).1, s', hs', hk, rfl⟩
    rw [← PolicyMaps.isSome_paramsAt]
    exact (hs _ _ hal) ▸ rfl
  have hconfig : ∀ (c : Prop) [Decidable c] (enabled : Bool) (P : PolicyMaps → Prop) (s : PolicyMaps),
      P s → P (s.effect (next.configOp enabled)) →
        Along PolicyMaps.effect P s (if c then [next.configOp enabled] else []) := by
    intro c _ enabled P s h h'
    split
    · exact ⟨h, h'⟩
    · exact h
  have hfirst : Along PolicyMaps.effect (Retiring previous next) maps
      (if (previous.enabled && !next.enabled) = true then [next.configOp false] else []) :=
    hconfig _ _ _ maps ⟨hg, hrefs, hunchanged⟩ ⟨fun k ref hk => hg k ref (by
      rwa [PolicyMaps.matchAt_effect_of_matchWrite_none rfl] at hk), hrefs.setEnabled _ _, hunchanged⟩
  have hretired : Along PolicyMaps.effect (Retiring previous next) _
      ((retiredRules previous next).flatMap CompiledRule.removeOps) :=
    .flatMap hfirst.last fun s rule hr hs => hs.along_removeOps hr
  have hreconciled : Along PolicyMaps.effect (Reconciling previous next) _
      (next.rules.flatMap fun rule => rule.reconcileOps (previous.rule rule.id)) :=
    .flatMap ⟨hretired.last.refs, hretired.last.unchanged⟩ fun s rule hr hs =>
      hs.along_reconcileOps hr
  have hlast := hreconciled.last.refs
  unfold diff
  simp only
  rw [Along.append_iff, Along.append_iff, Along.append_iff]
  refine ⟨⟨⟨hfirst.mono fun s h => h.refs, hretired.mono fun s h => h.refs⟩, ?_⟩, ?_⟩
  · rw [List.foldl_append]
    exact hreconciled.mono fun s h => h.refs
  · rw [List.foldl_append, List.foldl_append]
    exact hconfig _ _ _ _ hlast (hlast.setEnabled _ _)

end Phases

/-- What every run of full applies keeps: the entries and states of the applied program. -/
def AppliedInv (core : CollectorCore) : Prop :=
  ∃ policy : CheckedPolicy, policy = core.appliedPolicy ∧
    GrantedMatches core.maps policy ∧ KeepsAllotted core.maps policy

theorem appliedInv_of_reachable {allowed : CompiledPolicy → CompiledPolicy → Prop}
    {core : CollectorCore} (h : (appliedRuns allowed).Reachable core) : AppliedInv core := by
  refine h.invariant (fun s hs => ?_) ?_
  · subst hs
    exact ⟨CheckedPolicy.initial, rfl, fun k ref hk => by simp [CollectorCore.start] at hk,
      fun key params ha => by simp [CompiledPolicy.Allots] at ha⟩
  · rintro core core' ⟨policy, hp, hg, hs⟩ (hstep | ⟨program, _, hstep⟩)
    · obtain ⟨owners, flow, direction, stats, packetLen, now, rfl⟩ := hstep
      refine ⟨policy, hp, ?_, ?_⟩
      · simpa only [GrantedMatches, matchAt_evaluate] using hg
      · simpa only [KeepsAllotted, paramsAt_evaluate] using hs
    · obtain ⟨_, rfl⟩ := applyStep_iff.mp hstep
      rw [← hp]
      exact ⟨program, rfl, hg.effects_diff program, hs.effects_diff program⟩

/-- A packet finds the state of the rule it selects. -/
theorem NoDangling.evaluate_stats {maps : PolicyMaps} (h : NoDangling maps) (owners : OwnerMaps)
    (flow : ParsedFlow) (direction : Direction) (stats : KernelStats) (packetLen now : ℕ) :
    (evaluate maps owners flow direction stats packetLen now).2.2 = stats := by
  rw [evaluate_eq]
  split
  · next rule hr =>
    obtain ⟨k, rfl, hk⟩ := exists_of_selectRule hr
    obtain ⟨state, hs⟩ := Option.isSome_iff_exists.mp (Finmap.lookup_isSome.mpr (h k rule hk))
    simp [enforce, hs]
  · rfl

/-- A rule on the container and the name of one process. -/
def applicationRule : CheckedPolicy :=
  .ofResolved [⟨1, .limit 8192 16384, .both, [.appCgroup 42, .appComm (commBytes "curl")]⟩]
    (by decide) (by decide) (by decide)

end ZimaScope
