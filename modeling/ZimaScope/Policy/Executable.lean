import ZimaScope.Policy.Reconcile
import ZimaScope.Policy.States

/-! # Executable reconciliations

When the bounded maps let a whole reconciliation through. The rule states
always do. The match maps do when no rule removes a key that is not there and
no stage needs more room than a match map has.
-/

namespace ZimaScope

open WriteLog

section Programs

variable (held : MatchKey → Prop) (previous next : CompiledPolicy)

/-- The key is held once the retired rules are gone and the rules `done` are
reconciled: one of them wrote it or it was held before, and nothing removed it
since. -/
def HeldAfter (done : List CompiledRule) (k : MatchKey) : Prop :=
  (∃ done₁ rule done₂, done = done₁ ++ rule :: done₂ ∧ k ∈ installedKeys previous rule ∧
    ∀ r ∈ rule :: done₂, k ∉ droppedKeys previous r) ∨
  (held k ∧ k ∉ retiredKeys previous next ∧ ∀ r ∈ done, k ∉ droppedKeys previous r)

/-- What reconciling asks of the two programs on maps that hold these keys. -/
structure Executable : Prop where
  retired_nodup : (retiredKeys previous next).Nodup
  retired_held : ∀ k ∈ retiredKeys previous next, held k
  dropped_nodup : ∀ rule ∈ next.rules, (droppedKeys previous rule).Nodup
  dropped_held : ∀ done rule rest, next.rules = done ++ rule :: rest →
    ∀ k ∈ droppedKeys previous rule,
      HeldAfter held previous next done k ∨ k ∈ installedKeys previous rule
  room : ∀ done rule rest, next.rules = done ++ rule :: rest → ∀ tier,
    {k | MatchKey.tier k = tier ∧
      (HeldAfter held previous next done k ∨ k ∈ installedKeys previous rule)}.encard ≤
        maxTrafficRules

end Programs

/-- The operations run through: none fails, no map outgrows its capacity on the
way, and every removal finds its key. -/
structure RunsThrough (maps : PolicyMaps) (ops : List PolicyOp) : Prop where
  succeeds : (applyOps maps ops).1 = .ok ()
  matchRoom : ∀ executed rest, ops = executed ++ rest →
    ∀ k, (maps.effects executed).tierCard k ≤ maxTrafficRules
  stateRoom : ∀ executed rest, ops = executed ++ rest →
    (maps.effects executed).states.keys.card ≤ ruleStateCapacity
  matchPresent : ∀ executed entry rest, ops = executed ++ .removeMatch entry :: rest →
    ((maps.effects executed).matchAt entry.key).isSome
  statePresent : ∀ executed key rest, ops = executed ++ .removeState key :: rest →
    key ∈ (maps.effects executed).states

section Bounds

theorem CheckedPolicy.encard_owned_le (policy : CheckedPolicy) (tier : Fin 8) :
    {k | MatchKey.tier k = tier ∧ policy.Owns k}.encard ≤ maxTrafficRules := by
  have hs : {k | MatchKey.tier k = tier ∧ policy.Owns k} ⊆
      ((tierEntries policy.rules tier).image MatchEntry.key : Finset MatchKey) := by
    rintro k ⟨ht, rule, hr, entry, he, rfl⟩
    rw [tier_key] at ht
    simp only [Finset.coe_image, Set.mem_image, Finset.mem_coe, tierEntries, List.mem_toFinset,
      List.mem_filter, List.mem_flatMap, decide_eq_true_eq]
    exact ⟨entry, ⟨⟨rule, hr, he⟩, ht⟩, rfl⟩
  apply le_trans (Set.encard_le_encard hs)
  rw [Set.encard_coe_eq_coe_finsetCard, Nat.cast_le]
  exact le_trans Finset.card_image_le (policy.capacity tier)

theorem HoldsMatches.owns_of_held {maps : PolicyMaps} {policy : CompiledPolicy} {k : MatchKey}
    (h : HoldsMatches maps policy) (hk : maps.Held k) : policy.Owns k := by
  obtain ⟨ref, hk⟩ := Option.isSome_iff_exists.mp hk
  obtain ⟨rule, hr, ho, _⟩ := h.granted k ref hk
  exact ⟨rule, hr, ho⟩

theorem HoldsMatches.encard_le {maps : PolicyMaps} {policy : CheckedPolicy}
    (h : HoldsMatches maps policy) (tier : Fin 8) :
    (occupied MatchKey.tier maps.matchAt tier).encard ≤ maxTrafficRules := by
  refine le_trans (Set.encard_le_encard ?_) (policy.encard_owned_le tier)
  rintro k ⟨ht, hk⟩
  exact ⟨ht, h.owns_of_held hk⟩

theorem CheckedPolicy.encard_le_of_subset (policy : CheckedPolicy) {s : Set BucketKey}
    (hs : ∀ key ∈ s, key ∈ policy.stateSlots) : s.encard ≤ ruleStateCapacity := by
  have hsub : s ⊆ (policy.stateSlots.toFinset : Set BucketKey) := fun key hk => by
    simpa using hs key hk
  apply le_trans (Set.encard_le_encard hsub)
  rw [Set.encard_coe_eq_coe_finsetCard, Nat.cast_le]
  have hl := policy.length_stateSlots
  have hr := policy.rules_le
  have hc := List.toFinset_card_le policy.stateSlots
  unfold maxTrafficRules at hr
  unfold ruleStateCapacity
  omega

theorem HoldsStates.encard_le {maps : PolicyMaps} {policy : CheckedPolicy}
    (h : HoldsStates maps policy) :
    (occupied (fun _ => ()) maps.paramsAt ()).encard ≤ ruleStateCapacity := by
  apply policy.encard_le_of_subset
  rintro key ⟨_, hk⟩
  obtain ⟨p, hp⟩ := Option.isSome_iff_exists.mp hk
  exact ((h key p).mp hp).mem_stateSlots

end Bounds

section States

variable {maps : PolicyMaps} {previous next : CheckedPolicy} {key : BucketKey}

theorem mem_slots_of_changedKeys {rule : CompiledRule} (hr : rule ∈ next.rules)
    (hk : key ∈ changedKeys previous rule) : key ∈ next.stateSlots := by
  obtain ⟨s, hs, _, hk⟩ := mem_changedKeys.mp hk
  exact next.mem_stateSlots hr (CompiledRule.mem_stateKeys.mpr ⟨s, hs, hk⟩)

theorem nodup_retiredStateKeys (previous next : CheckedPolicy) :
    (retiredStateKeys previous next).Nodup := by
  refine List.nodup_flatMap.mpr ⟨fun rule hr => ?_, ?_⟩
  · exact (previous.expanded rule (mem_retiredRules.mp hr).1).nodup_stateKeys
  · have hn : (retiredRules previous next).Pairwise fun a b => a.id ≠ b.id :=
      List.pairwise_map.mp ((List.filter_sublist.map _).nodup previous.ids_nodup)
    refine hn.imp_of_mem fun {a b} ha hb hab key hka hkb => hab ?_
    rw [← (previous.expanded a (mem_retiredRules.mp ha).1).ruleId_stateKey hka,
      ← (previous.expanded b (mem_retiredRules.mp hb).1).ruleId_stateKey hkb]

/-- The states outlive a reconciliation only within the slots of the next program. -/
def StatesFit (maps : PolicyMaps) (previous next : CompiledPolicy) : Prop :=
  ∀ key ∈ maps.states, key ∉ retiredStateKeys previous next → key ∈ next.stateSlots

theorem StatesFit.mem_slots_of_present (h : StatesFit maps previous next)
    {done : List CompiledRule} (hd : ∀ r ∈ done, r ∈ next.rules)
    (hp : Present maps.paramsAt
      (⟨[], retiredStateKeys previous next⟩ :: done.map (stateStage previous)) key) :
    key ∈ next.stateSlots := by
  rcases hp with ⟨ss₁, s, ss₂, hs, hput, _⟩ | ⟨hk, ht⟩
  · have hm : s ∈ ss₁ ++ s :: ss₂ := by simp
    rw [← hs] at hm
    rcases List.mem_cons.mp hm with rfl | hm
    · simp [Stage.putKeys] at hput
    · obtain ⟨r, hr, rfl⟩ := List.mem_map.mp hm
      rw [putKeys_stateStage] at hput
      exact mem_slots_of_changedKeys (hd r hr) hput
  · exact h key ((maps.isSome_paramsAt key).mp ht) (kept_cons.mp hk).1

/-- The rule states let a reconciliation through when what it removes is there
and what it leaves fits. -/
theorem StatesFit.legal_diff (h : StatesFit maps previous next)
    (hcap : (occupied (fun _ => ()) maps.paramsAt ()).encard ≤ ruleStateCapacity)
    (hret : ∀ key ∈ retiredStateKeys previous next, key ∈ maps.states) :
    Legal (fun _ => ()) ruleStateCapacity maps.paramsAt (stateWrites (diff previous next)) := by
  rw [stateWrites_diff, legal_log_iff fun _ => hcap]
  intro ss₁ s ss₂ hss
  rcases List.cons_eq_append_iff.mp hss with ⟨rfl, he⟩ | ⟨done, rfl, he⟩
  · obtain ⟨rfl, _⟩ := List.cons.inj he
    refine ⟨fun _ => ?_, nodup_retiredStateKeys previous next, fun key hk => ?_⟩
    · simpa [Present, Stage.putKeys, occupied] using hcap
    · exact Or.inl (Or.inr ⟨kept_nil _, (maps.isSome_paramsAt key).mpr (hret key hk)⟩)
  · obtain ⟨done, rest, hn, rfl, hcons⟩ := List.map_eq_append_iff.mp he
    obtain ⟨rule, rest, rfl, rfl, rfl⟩ := List.map_eq_cons_iff.mp hcons
    refine ⟨fun _ => next.encard_le_of_subset ?_, List.nodup_nil, by simp [stateStage]⟩
    rintro key ⟨_, hp | hp⟩
    · exact h.mem_slots_of_present (fun r hr => by rw [hn]; simp [hr]) hp
    · rw [putKeys_stateStage] at hp
      exact mem_slots_of_changedKeys (by rw [hn]; simp) hp

theorem HoldsStates.exists_of_mem (h : HoldsStates maps previous) (hk : key ∈ maps.states) :
    ∃ before ∈ previous.rules, key ∈ before.stateKeys := by
  obtain ⟨p, hp⟩ := Option.isSome_iff_exists.mp ((maps.isSome_paramsAt key).mpr hk)
  obtain ⟨before, hb, s, hs, hk, _⟩ := (h key p).mp hp
  exact ⟨before, hb, CompiledRule.mem_stateKeys.mpr ⟨s, hs, hk⟩⟩

theorem HoldsStates.statesFit (h : HoldsStates maps previous) : StatesFit maps previous next := by
  intro key hk hret
  obtain ⟨before, hb, hkey⟩ := h.exists_of_mem hk
  cases hr : next.rule before.id with
  | none =>
    exact absurd (List.mem_flatMap.mpr ⟨before, mem_retiredRules.mpr ⟨hb, hr⟩, hkey⟩) hret
  | some rule =>
    obtain ⟨hrm, hid⟩ := CompiledPolicy.mem_of_rule hr
    obtain ⟨direction, hd⟩ := (previous.expanded before hb).stateKeys_eq
    rw [hd] at hkey
    obtain ⟨d, _, he⟩ := List.mem_map.mp hkey
    rw [← he, ← hid]
    refine List.mem_flatMap.mpr ⟨rule, hrm, List.mem_map.mpr ⟨d, ?_, rfl⟩⟩
    cases d <;> decide

/-- States that hold the previous program let every reconciliation through. -/
theorem HoldsStates.legal_diff (h : HoldsStates maps previous) (next : CheckedPolicy) :
    Legal (fun _ => ()) ruleStateCapacity maps.paramsAt (stateWrites (diff previous next)) := by
  apply h.statesFit.legal_diff h.encard_le
  intro key hk
  obtain ⟨rule, hr, hk⟩ := List.mem_flatMap.mp hk
  obtain ⟨s, hs, rfl⟩ := CompiledRule.mem_stateKeys.mp hk
  have hp := (h s.key _).mpr ⟨rule, (mem_retiredRules.mp hr).1, s, hs, rfl, rfl⟩
  exact (maps.isSome_paramsAt _).mp (by rw [hp]; rfl)

end States

section Matches

variable {maps : PolicyMaps}

/-- What the first stages leave in the match table, in terms of the rules. -/
theorem present_matchStages_iff {previous next : CompiledPolicy} {done : List CompiledRule}
    {k : MatchKey} :
    Present maps.matchAt (⟨[], retiredKeys previous next⟩ :: done.map (matchStage previous)) k ↔
      HeldAfter maps.Held previous next done k := by
  have hkept : ∀ rs : List CompiledRule, Kept (rs.map (matchStage previous)) k ↔
      ∀ r ∈ rs, k ∉ droppedKeys previous r := by
    simp [Kept, matchStage]
  have hrest : Restored (done.map (matchStage previous)) k ↔ ∃ done₁ rule done₂,
      done = done₁ ++ rule :: done₂ ∧ k ∈ installedKeys previous rule ∧
        ∀ r ∈ rule :: done₂, k ∉ droppedKeys previous r := by
    constructor
    · rintro ⟨ss₁, s, ss₂, hs, hp, hk⟩
      obtain ⟨done₁, rest, rfl, rfl, hcons⟩ := List.map_eq_append_iff.mp hs
      obtain ⟨rule, done₂, rfl, rfl, rfl⟩ := List.map_eq_cons_iff.mp hcons
      rw [putKeys_matchStage] at hp
      exact ⟨done₁, rule, done₂, rfl, hp, (hkept (rule :: done₂)).mp hk⟩
    · rintro ⟨done₁, rule, done₂, rfl, hp, hk⟩
      exact ⟨_, _, _, List.map_append, by rwa [putKeys_matchStage],
        (hkept (rule :: done₂)).mpr hk⟩
  unfold Present HeldAfter PolicyMaps.Held
  rw [restored_cons, kept_cons, hrest, hkept]
  simp only [Stage.putKeys, List.map_nil, List.not_mem_nil, false_and, or_false]
  exact or_congr Iff.rfl and_comm

/-- The match maps let a reconciliation through exactly when it is executable. -/
theorem legal_matchWrites_diff_iff {previous next : CompiledPolicy}
    (hcap : ∀ tier, (occupied MatchKey.tier maps.matchAt tier).encard ≤ maxTrafficRules) :
    Legal MatchKey.tier defaultTrafficRuleCapacity maps.matchAt
      (matchWrites (diff previous next)) ↔ Executable maps.Held previous next := by
  replace hcap : ∀ tier, (occupied MatchKey.tier maps.matchAt tier).encard ≤
      defaultTrafficRuleCapacity := hcap
  rw [matchWrites_diff, legal_log_iff hcap]
  have hput : ∀ k rule, k ∈ (matchStage previous rule).putKeys ↔
      k ∈ installedKeys previous rule := fun k rule => by rw [putKeys_matchStage]
  have hfirst : ∀ k, Present maps.matchAt [] k ↔ maps.Held k := by
    simp [Present, PolicyMaps.Held]
  constructor
  · intro ha
    have hrule : ∀ done rule rest, next.rules = done ++ rule :: rest →
        Admits MatchKey.tier defaultTrafficRuleCapacity maps.matchAt
          (⟨[], retiredKeys previous next⟩ :: done.map (matchStage previous))
          (matchStage previous rule) := by
      intro done rule rest hn
      exact ha _ _ (rest.map (matchStage previous)) (by rw [matchStages, hn, List.map_append]; rfl)
    refine ⟨(ha [] _ _ rfl).nodup, fun k hk => ?_, fun rule hr => ?_, fun done rule rest hn k hk => ?_,
      fun done rule rest hn tier => ?_⟩
    · simpa [hfirst, Stage.putKeys] using (ha [] _ _ rfl).present k hk
    · obtain ⟨done, rest, hn⟩ := List.append_of_mem hr
      exact (hrule done rule rest hn).nodup
    · rw [← present_matchStages_iff, ← hput]
      exact (hrule done rule rest hn).present k hk
    · simp only [← present_matchStages_iff, ← hput]
      exact (hrule done rule rest hn).room tier
  · intro he ss₁ s ss₂ hss
    rcases List.cons_eq_append_iff.mp hss with ⟨rfl, hc⟩ | ⟨done, rfl, hc⟩
    · obtain ⟨rfl, _⟩ := List.cons.inj hc
      refine ⟨fun tier => ?_, he.retired_nodup, fun k hk => ?_⟩
      · simpa [Present, Stage.putKeys, occupied] using hcap tier
      · exact Or.inl ((hfirst k).mpr (he.retired_held k hk))
    · obtain ⟨done, rest, hn, rfl, hcons⟩ := List.map_eq_append_iff.mp hc
      obtain ⟨rule, rest, rfl, rfl, rfl⟩ := List.map_eq_cons_iff.mp hcons
      refine ⟨fun tier => ?_, he.dropped_nodup rule (by rw [hn]; simp), fun k hk => ?_⟩
      · simp only [present_matchStages_iff, hput]
        exact he.room done rule rest hn tier
      · rw [present_matchStages_iff, hput]
        exact he.dropped_held done rule rest hn k hk

/-- An accepted list runs through, whatever its maps started with in their bounds. -/
theorem PolicyMaps.Accepts.runsThrough {maps : PolicyMaps} {ops : List PolicyOp}
    (h : maps.Accepts ops)
    (hm : ∀ tier, (occupied MatchKey.tier maps.matchAt tier).encard ≤ maxTrafficRules)
    (hs : (occupied (fun _ => ()) maps.paramsAt ()).encard ≤ ruleStateCapacity) :
    RunsThrough maps ops := by
  constructor
  · rw [applyOps_ok_iff.mpr ⟨h, rfl⟩]
  · rintro executed rest rfl k
    have hl := (PolicyMaps.accepts_append.mp h).1.matchLegal.encard_le hm k.tier
    rwa [← PolicyMaps.matchAt_effects, PolicyMaps.encard_occupied, Nat.cast_le] at hl
  · rintro executed rest rfl
    have hl := (PolicyMaps.accepts_append.mp h).1.stateLegal.encard_le (fun _ => hs) ()
    rwa [← PolicyMaps.paramsAt_effects, PolicyMaps.encard_occupied_states, Nat.cast_le] at hl
  · rintro executed entry rest rfl
    have ha := (PolicyMaps.accepts_append.mp h).2
    exact PolicyMaps.accepts_removeMatch.mp (PolicyMaps.accepts_cons.mp ha).1
  · rintro executed key rest rfl
    have ha := (PolicyMaps.accepts_append.mp h).2
    exact PolicyMaps.accepts_removeState.mp (PolicyMaps.accepts_cons.mp ha).1

variable {previous next : CheckedPolicy}

theorem HoldsMatches.held_eq (h : HoldsMatches maps previous) : maps.Held = previous.Owns := by
  funext k
  exact propext ⟨h.owns_of_held, h.present k⟩

theorem HoldsMatches.accepts_diff_iff (hm : HoldsMatches maps previous)
    (hs : HoldsStates maps previous) :
    maps.Accepts (diff previous next) ↔ Executable previous.Owns previous next := by
  rw [← hm.held_eq, ← legal_matchWrites_diff_iff hm.encard_le]
  exact ⟨fun h => h.matchLegal, fun h => ⟨h, hs.legal_diff next⟩⟩

/-- On maps that hold the previous program a reconciliation runs through
exactly when it is executable. -/
theorem diff_runs_through_iff (hm : HoldsMatches maps previous) (hs : HoldsStates maps previous) :
    RunsThrough maps (diff previous next) ↔ Executable previous.Owns previous next := by
  rw [← hm.accepts_diff_iff hs]
  constructor
  · intro h
    have hr : applyOps maps (diff previous next) =
        (.ok (), (applyOps maps (diff previous next)).2) := Prod.ext h.succeeds rfl
    exact (applyOps_ok_iff.mp hr).1
  · intro h
    exact h.runsThrough hm.encard_le hs.encard_le

end Matches

/-- Two rules on one address. -/
def sharedEntry : CheckedPolicy :=
  .ofResolved [⟨1, .block, .outbound, [.endpoint (.new 203 0 113 1) none]⟩,
    ⟨2, .block, .outbound, [.endpoint (.new 203 0 113 1) none]⟩]
    (by decide) (by decide) (by decide)

theorem holdsStates_install (policy : CheckedPolicy) :
    HoldsStates (PolicyMaps.empty.effects (diff CheckedPolicy.initial policy)) policy := by
  have hempty : HoldsStates PolicyMaps.empty CheckedPolicy.initial := by
    simp [HoldsStates, CompiledPolicy.Allots]
  apply (hempty.effects_diff_iff policy).mpr
  intro _ _ before hb
  simp [CompiledPolicy.rule] at hb

theorem diff_runs_through_exchange :
    RunsThrough (PolicyMaps.empty.effects (diff CheckedPolicy.initial exchangeBefore))
      (diff exchangeBefore exchangeAfter) ↔
    Executable exchangeBefore.Owns exchangeBefore exchangeAfter :=
  diff_runs_through_iff (holdsMatches_install _) (holdsStates_install _)

/-- Removing two rules that share an entry removes it twice. -/
theorem diff_removes_shared_entry_twice :
    HoldsMatches (PolicyMaps.empty.effects (diff CheckedPolicy.initial sharedEntry)) sharedEntry ∧
      HoldsStates (PolicyMaps.empty.effects (diff CheckedPolicy.initial sharedEntry)) sharedEntry ∧
      (applyOps (PolicyMaps.empty.effects (diff CheckedPolicy.initial sharedEntry))
        (diff sharedEntry CheckedPolicy.initial)).1 =
          .error ⟨"remove endpoint match", .keyNotFound⟩ :=
  ⟨holdsMatches_install _, holdsStates_install _, rfl⟩

end ZimaScope
