import ZimaScope.Policy.Compile

/-! # What one rule does to the others

A rule that does not validate or resolve is reported and leaves the others
alone. A tier that overflows, by one rule or by all of them together, fails the
program as a whole.
-/

namespace ZimaScope

/-! ## Outcomes -/

section Outcomes

variable {σ : Type} (resolve : Resolver σ)

/-- What each rule compiles to in its turn. -/
def outcomes (s : σ) : List TrafficRule → List (TrafficRule × Except String CompiledRule)
  | [] => []
  | rule :: rules =>
    let (result, s) := compileRule resolve s rule
    (rule, result) :: outcomes s rules

abbrev enabledOutcomes (s : σ) (rules : List TrafficRule) :
    List (TrafficRule × Except String CompiledRule) :=
  outcomes resolve s (rules.filter TrafficRule.enabled)

def compiledOf (os : List (TrafficRule × Except String CompiledRule)) : List CompiledRule :=
  os.filterMap fun o => o.2.toOption

/-- The rules that were not compiled, with their reasons. -/
def unresolvedOf (os : List (TrafficRule × Except String CompiledRule)) : List UnresolvedRule :=
  os.filterMap fun o =>
    match o.2 with
    | .ok _ => none
    | .error reason => some ⟨o.1.id, reason⟩

/-- The kernel maps can represent the rules. -/
structure FitsMaps (rules : List CompiledRule) : Prop where
  rules_le : rules.length ≤ maxTrafficRules
  capacity : ∀ tier, (tierEntries rules tier).card ≤ maxTrafficRules

theorem compileRules_eq (s : σ) (rules : List TrafficRule) :
    (compileRules resolve s rules).1 = compiledOf (outcomes resolve s rules) ∧
      (compileRules resolve s rules).2.1 = unresolvedOf (outcomes resolve s rules) := by
  induction rules generalizing s with
  | nil => exact ⟨rfl, rfl⟩
  | cons rule rules ih =>
    unfold compileRules outcomes compiledOf unresolvedOf
    cases hrule : compileRule resolve s rule with
    | mk result s' =>
      obtain ⟨hcompiled, hunresolved⟩ := ih s'
      cases result with
      | ok compiled => exact ⟨congrArg (compiled :: ·) hcompiled, hunresolved⟩
      | error reason => exact ⟨hcompiled, congrArg (⟨rule.id, reason⟩ :: ·) hunresolved⟩

end Outcomes

/-! ## The checks of the whole program -/

section Checks

variable {σ : Type} {resolve : Resolver σ} {s : σ} {rules : List TrafficRule} {revision : ℕ}
  {enabled : Bool}

theorem compile_of_fits (h : FitsMaps (compiledOf (enabledOutcomes resolve s rules))) :
    compile resolve s rules revision enabled =
      .ok ⟨⟨revision, enabled,
          compiledOf (enabledOutcomes resolve s rules)⟩,
        unresolvedOf (enabledOutcomes resolve s rules)⟩ := by
  obtain ⟨hcompiled, hunresolved⟩ :=
    compileRules_eq resolve s (rules.filter TrafficRule.enabled)
  rw [← hcompiled] at h
  unfold compile
  simp only [if_neg (not_lt.mpr h.rules_le), checkCapacity_ok.mpr h.capacity]
  rw [← hcompiled, ← hunresolved]
  rfl

theorem compile_ok_iff_fitsMaps {program : CompiledProgram} :
    compile resolve s rules revision enabled = .ok program ↔
      FitsMaps (compiledOf (enabledOutcomes resolve s rules)) ∧
        program = ⟨⟨revision, enabled,
            compiledOf (enabledOutcomes resolve s rules)⟩,
          unresolvedOf (enabledOutcomes resolve s rules)⟩ := by
  obtain ⟨hcompiled, hunresolved⟩ :=
    compileRules_eq resolve s (rules.filter TrafficRule.enabled)
  constructor
  · intro h
    obtain ⟨rfl, hlen, hcapacity⟩ := compile_ok h
    rw [← hcompiled, ← hunresolved]
    exact ⟨⟨hlen, hcapacity⟩, rfl⟩
  · rintro ⟨hfits, rfl⟩
    exact compile_of_fits hfits

/-- The first of the tiers with a property. -/
theorem find?_tier {p : Fin 8 → Bool} {tier : Fin 8} (hfirst : ∀ t < tier, p t = false)
    (h : p tier = true) : (List.finRange 8).find? p = some tier := by
  cases hfind : (List.finRange 8).find? p with
  | none =>
    have hnone := List.find?_eq_none.mp hfind tier (List.mem_finRange tier)
    exact absurd h hnone
  | some t =>
    obtain ⟨ht, as, bs, hsplit, has⟩ := List.find?_eq_some_iff_append.mp hfind
    have hmem : tier ∈ as ++ t :: bs := hsplit ▸ List.mem_finRange tier
    have hsorted : (as ++ t :: bs).Pairwise (· < ·) := hsplit ▸ List.pairwise_lt_finRange 8
    rcases List.mem_append.mp hmem with hbefore | hrest
    · simpa [h] using has tier hbefore
    · rcases List.mem_cons.mp hrest with rfl | hafter
      · rfl
      · have hlt := List.rel_of_pairwise_cons (List.pairwise_append.mp hsorted).2.1 hafter
        rw [hfirst t hlt] at ht
        cases ht

/-- The text of the error that names a tier. -/
def overflowReason (rules : List CompiledRule) (tier : Fin 8) : String :=
  let entries := (tierEntries rules tier).card
  s!"match tier {tier} holds {entries} entries, more than the " ++
    s!"{maxTrafficRules} kernel capacity"

/-- The first tier that overflows is the one that is named. -/
theorem compile_of_overflow {tier : Fin 8}
    (hlen : (compiledOf (enabledOutcomes resolve s rules)).length ≤
      maxTrafficRules)
    (hfirst : ∀ t < tier, (tierEntries
      (compiledOf (enabledOutcomes resolve s rules)) t).card ≤
        maxTrafficRules)
    (hover : maxTrafficRules < (tierEntries
      (compiledOf (enabledOutcomes resolve s rules)) tier).card) :
    compile resolve s rules revision enabled = .error (overflowReason
      (compiledOf (enabledOutcomes resolve s rules)) tier) := by
  obtain ⟨hcompiled, -⟩ := compileRules_eq resolve s (rules.filter TrafficRule.enabled)
  rw [← hcompiled] at hlen hfirst hover ⊢
  have hfind : ((List.finRange 8).find? fun t => maxTrafficRules < (tierEntries
      (compileRules resolve s (rules.filter TrafficRule.enabled)).1 t).card) = some tier :=
    find?_tier (fun t ht => decide_eq_false (not_lt.mpr (hfirst t ht))) (decide_eq_true hover)
  unfold compile checkCapacity
  simp only [if_neg (not_lt.mpr hlen), hfind]
  rfl

/-- A tier holds at least what each rule puts in it. -/
theorem card_tierEntries_le {compiled : CompiledRule} {rules : List CompiledRule}
    (h : compiled ∈ rules) (tier : Fin 8) :
    (tierEntries [compiled] tier).card ≤ (tierEntries rules tier).card := by
  apply Finset.card_le_card
  intro entry hentry
  simp only [tierEntries, List.mem_toFinset, List.mem_filter, List.mem_flatMap,
    List.mem_singleton, exists_eq_left] at hentry ⊢
  exact ⟨⟨compiled, h, hentry.1⟩, hentry.2⟩

/-- A rule that does not fit by itself leaves no program. -/
theorem compile_of_oversized {rule : TrafficRule} {compiled : CompiledRule} {tier : Fin 8}
    (hrule : (rule, .ok compiled) ∈ enabledOutcomes resolve s rules)
    (hover : maxTrafficRules < (tierEntries [compiled] tier).card) :
    ∀ program, compile resolve s rules revision enabled ≠ .ok program := by
  intro program h
  obtain ⟨hfits, -⟩ := compile_ok_iff_fitsMaps.mp h
  have hmem : compiled ∈ compiledOf (enabledOutcomes resolve s rules) :=
    List.mem_filterMap.mpr ⟨_, hrule, rfl⟩
  have hle := card_tierEntries_le hmem tier
  have hcapacity := hfits.capacity tier
  omega

/-- So do too many rules. -/
theorem compile_of_many (h : maxTrafficRules <
      (compiledOf (enabledOutcomes resolve s rules)).length) :
    compile resolve s rules revision enabled = .error (
      let count := (compiledOf (enabledOutcomes resolve s rules)).length
      s!"{count} enabled rules exceed the {maxTrafficRules} rule capacity") := by
  obtain ⟨hcompiled, -⟩ := compileRules_eq resolve s (rules.filter TrafficRule.enabled)
  rw [← hcompiled] at h ⊢
  unfold compile
  simp only [if_pos h]

end Checks

/-! ## Rules that were not compiled -/

section Isolation

variable {σ : Type} {resolve : Resolver σ} {answer : Selector → Except String Resolution}
  (hanswer : ∀ s selector, resolve s selector = (answer selector, s))

include hanswer

/-- A resolver whose answers depend on the selector alone stays as it is. -/
theorem compileRule_state (s : σ) (rule : TrafficRule) : (compileRule resolve s rule).2 = s := by
  unfold compileRule
  rw [hanswer]
  split
  · rfl
  · split <;> simp_all

theorem compileRules_filter (s : σ) (rules : List TrafficRule) :
    (compileRules resolve s
        (rules.filter fun rule => (compileRule resolve s rule).1.isOk)).1 =
        (compileRules resolve s rules).1 ∧
      (compileRules resolve s
        (rules.filter fun rule => (compileRule resolve s rule).1.isOk)).2.1 = [] := by
  induction rules with
  | nil => exact ⟨rfl, rfl⟩
  | cons rule rules ih =>
    have hstate := compileRule_state hanswer s rule
    cases hrule : compileRule resolve s rule with
    | mk result s' =>
      rw [hrule] at hstate
      simp only at hstate
      subst hstate
      cases result with
      | ok compiled =>
        rw [List.filter_cons_of_pos (by rw [hrule]; rfl)]
        unfold compileRules
        rw [hrule]
        exact ⟨congrArg (compiled :: ·) ih.1, ih.2⟩
      | error reason =>
        rw [List.filter_cons_of_neg (by rw [hrule]; exact Bool.false_ne_true)]
        refine ⟨ih.1.trans ?_, ih.2⟩
        conv_rhs => unfold compileRules
        rw [hrule]

/-- The rules that do not compile might as well be absent. -/
theorem compile_filter (s : σ) (rules : List TrafficRule) (revision : ℕ) (enabled : Bool) :
    compile resolve s (rules.filter fun rule => (compileRule resolve s rule).1.isOk) revision
        enabled =
      (compile resolve s rules revision enabled).map fun program =>
        { program with unresolved := [] } := by
  obtain ⟨hcompiled, hunresolved⟩ :=
    compileRules_filter hanswer s (rules.filter TrafficRule.enabled)
  rw [List.filter_comm] at hcompiled hunresolved
  unfold compile
  simp only [hcompiled, hunresolved]
  split
  · rfl
  · cases checkCapacity (compileRules resolve s (rules.filter TrafficRule.enabled)).1 <;> rfl

end Isolation

/-- A program is compiled exactly when all of it fits, from the rules that validate and
resolve and without the others; a rule that does not fit by itself, or any other
overflow, leaves no program. -/
theorem compile_isolates_unresolved {σ : Type} (resolve : Resolver σ) (s : σ)
    (rules : List TrafficRule) (revision : ℕ) (enabled : Bool) :
    (∀ program, compile resolve s rules revision enabled = .ok program ↔
      FitsMaps (compiledOf (enabledOutcomes resolve s rules)) ∧
        program = ⟨⟨revision, enabled, compiledOf (enabledOutcomes resolve s rules)⟩,
          unresolvedOf (enabledOutcomes resolve s rules)⟩) ∧
    (∀ answer : Selector → Except String Resolution,
      (∀ s selector, resolve s selector = (answer selector, s)) →
        compile resolve s (rules.filter fun rule => (compileRule resolve s rule).1.isOk) revision
            enabled =
          (compile resolve s rules revision enabled).map fun program =>
            { program with unresolved := [] }) ∧
    (∀ rule compiled tier, (rule, .ok compiled) ∈ enabledOutcomes resolve s rules →
      maxTrafficRules < (tierEntries [compiled] tier).card →
        ∀ program, compile resolve s rules revision enabled ≠ .ok program) ∧
    ∀ tier, (compiledOf (enabledOutcomes resolve s rules)).length ≤ maxTrafficRules →
      (∀ t < tier, (tierEntries (compiledOf (enabledOutcomes resolve s rules)) t).card ≤
        maxTrafficRules) →
      maxTrafficRules < (tierEntries (compiledOf (enabledOutcomes resolve s rules)) tier).card →
        compile resolve s rules revision enabled =
          .error (overflowReason (compiledOf (enabledOutcomes resolve s rules)) tier) :=
  ⟨fun _ => compile_ok_iff_fitsMaps, fun _ hanswer => compile_filter hanswer s rules revision enabled,
    fun _ _ _ => compile_of_oversized, fun _ => compile_of_overflow⟩

section Example

/-- A resolver that finds 65 cgroups for an application, and one address for anything else. -/
def crowdedResolver : Resolver Unit := fun s selector =>
  match selector with
  | .application _ => (.ok ⟨(List.range 65).map fun n => .appCgroup (UInt64.ofNat n), .complete⟩, s)
  | _ => (.ok ⟨[.endpoint (.new 203 0 113 1) none], .complete⟩, s)

def bigRule : TrafficRule := ⟨1, .block, .outbound, .application "cont:big", true⟩

def smallRule : TrafficRule :=
  ⟨2, .block, .outbound, .endpoint (.v4 (.new 203 0 113 1)) none, true⟩

def bigCompiled : CompiledRule :=
  .ofTargets 1 .block .outbound ((List.range 65).map fun n => .appCgroup (UInt64.ofNat n))

theorem outcomes_crowded : (bigRule, .ok bigCompiled) ∈
    enabledOutcomes crowdedResolver () [bigRule, smallRule] :=
  List.mem_cons_self

theorem crowded_overflows : maxTrafficRules < (tierEntries [bigCompiled] 1).card := by
  decide +kernel

/-- The small rule alone compiles, and with the big one nothing does. -/
theorem crowded_isolates : (∃ program, compile crowdedResolver () [smallRule] 1 true = .ok program) ∧
    ∀ program, compile crowdedResolver () [bigRule, smallRule] 1 true ≠ .ok program :=
  ⟨⟨_, ((compile_isolates_unresolved crowdedResolver () [smallRule] 1 true).1 _).mpr
      ⟨⟨by decide, by decide⟩, rfl⟩⟩,
    (compile_isolates_unresolved crowdedResolver () [bigRule, smallRule] 1 true).2.2.1 _ _ _
      outcomes_crowded crowded_overflows⟩

/-- A rule with too many targets is not reported: the program is lost, the other rule with it. -/
theorem crowd_fails_program : ¬ ∀ (σ : Type) (resolve : Resolver σ) (s : σ)
    (rules : List TrafficRule) (rule : TrafficRule) (compiled : CompiledRule) (tier : Fin 8),
    (rule, .ok compiled) ∈ enabledOutcomes resolve s rules →
      maxTrafficRules < (tierEntries [compiled] tier).card →
        ∃ program, compile resolve s rules 1 true = .ok program := by
  intro h
  obtain ⟨program, hprogram⟩ := h Unit crowdedResolver () [bigRule, smallRule] bigRule bigCompiled 1
    outcomes_crowded crowded_overflows
  exact compile_of_oversized outcomes_crowded crowded_overflows program hprogram

end Example

end ZimaScope
