import ZimaScope.Api.Rules

/-! # Drafts

How the body of a create or update request becomes a draft. An update merges
the fields it mentions into the rule it found; two rules that agree on the
fields it leaves out give the same draft.
-/

namespace ZimaScope

structure CreateTrafficRuleRequest where
  action : String
  direction : String
  selector : Selector
  rateBytesPerS : Option ℕ := none
  enabled : Option Bool := none
  deriving DecidableEq, Repr

structure UpdateTrafficRuleRequest where
  action : Option String := none
  direction : Option String := none
  selector : Option Selector := none
  rateBytesPerS : Option ℕ := none
  enabled : Option Bool := none
  deriving DecidableEq, Repr

def validateDraft (draft : TrafficRuleDraft) : Except ApiError Unit :=
  (validateRule ⟨0, draft.action, draft.direction, draft.selector, draft.enabled⟩).mapError
    .unprocessable

def directionFromName (name : String) : Except ApiError RuleDirection :=
  match RuleDirection.fromName name with
  | some direction => .ok direction
  | none => .error (.unprocessable s!"unknown direction {repr name}")

def kindFromName (name : String) : Except ApiError RuleAction :=
  match actionFromName name with
  | some kind => .ok kind
  | none => .error (.unprocessable s!"unknown action {repr name}")

/-- The action of a request: a limit's burst is its rate, a block carries no rate. -/
def actionOf (kind : RuleAction) (rate : Option ℕ) (default : ℕ) : Except ApiError ActionSpec :=
  match kind with
  | .limit => .ok (.limit (rate.getD default) (rate.getD default))
  | .block =>
    if rate.isSome then .error (.unprocessable "block rules carry no rate") else .ok .block

def draftFromCreate (request : CreateTrafficRuleRequest) : Except ApiError TrafficRuleDraft := do
  let kind ← kindFromName request.action
  let direction ← directionFromName request.direction
  let action ← actionOf kind request.rateBytesPerS 0
  let draft := ⟨action, direction, request.selector, request.enabled.getD true⟩
  validateDraft draft
  .ok draft

namespace UpdateTrafficRuleRequest

/-- The direction of the merged rule. -/
def mergedDirection (request : UpdateTrafficRuleRequest) (existing : TrafficRule) :
    Except ApiError RuleDirection :=
  match request.direction with
  | some name => directionFromName name
  | none => .ok existing.direction

/-- The kind of action of the merged rule. -/
def mergedKind (request : UpdateTrafficRuleRequest) (existing : TrafficRule) :
    Except ApiError RuleAction :=
  match request.action with
  | some name => kindFromName name
  | none => .ok existing.action.action

end UpdateTrafficRuleRequest

/-- Fields the request mentions replace those of the rule; a limit keeps its rate, and a
kept block refuses one. -/
def draftFromUpdate (existing : TrafficRule) (request : UpdateTrafficRuleRequest) :
    Except ApiError TrafficRuleDraft := do
  let direction ← request.mergedDirection existing
  let selector := request.selector.getD existing.selector
  let kind ← request.mergedKind existing
  let action ← actionOf kind request.rateBytesPerS existing.action.rates.1
  let draft := ⟨action, direction, selector, request.enabled.getD existing.enabled⟩
  validateDraft draft
  .ok draft

/-- What storage relies on: a valid draft whose burst is its rate. -/
structure TrafficRuleDraft.Valid (draft : TrafficRuleDraft) : Prop where
  ok : validateDraft draft = .ok ()
  burst : draft.action.rates.2 = draft.action.rates.1

section Merge

variable {existing now : TrafficRule} {draft : TrafficRuleDraft}

theorem actionOf_ok {kind : RuleAction} {rate : Option ℕ} {default : ℕ} {action : ActionSpec}
    (h : actionOf kind rate default = .ok action) :
    action.action = kind ∧ action.rates.2 = action.rates.1 := by
  cases kind with
  | limit =>
    obtain rfl := Except.ok.inj h
    exact ⟨rfl, rfl⟩
  | block =>
    simp only [actionOf] at h
    split at h
    · simp at h
    · obtain rfl := Except.ok.inj h
      exact ⟨rfl, rfl⟩

theorem draftFromCreate_valid {request : CreateTrafficRuleRequest}
    (h : draftFromCreate request = .ok draft) : draft.Valid := by
  unfold draftFromCreate at h
  obtain ⟨kind, _, h⟩ := Except.bind_eq_ok.mp h
  obtain ⟨direction, _, h⟩ := Except.bind_eq_ok.mp h
  obtain ⟨action, ha, h⟩ := Except.bind_eq_ok.mp h
  obtain ⟨_, hv, h⟩ := Except.bind_eq_ok.mp h
  obtain rfl := Except.ok.inj h
  exact ⟨hv, (actionOf_ok ha).2⟩

open UpdateTrafficRuleRequest

variable {request : UpdateTrafficRuleRequest}

/-- What a draft merged from a request and a rule consists of. -/
theorem draftFromUpdate_ok_iff : draftFromUpdate existing request = .ok draft ↔
    request.mergedDirection existing = .ok draft.direction ∧
      (∃ kind, request.mergedKind existing = .ok kind ∧
        actionOf kind request.rateBytesPerS existing.action.rates.1 = .ok draft.action) ∧
      request.selector.getD existing.selector = draft.selector ∧
      request.enabled.getD existing.enabled = draft.enabled ∧
      validateDraft draft = .ok () := by
  unfold draftFromUpdate
  simp only [Except.bind_eq_ok, Except.ok.injEq]
  constructor
  · rintro ⟨direction, hd, kind, hk, action, ha, _, hv, rfl⟩
    exact ⟨hd, ⟨kind, hk, ha⟩, rfl, rfl, hv⟩
  · rintro ⟨hd, ⟨kind, hk, ha⟩, hs, he, hv⟩
    have hdraft : (⟨draft.action, draft.direction, request.selector.getD existing.selector,
        request.enabled.getD existing.enabled⟩ : TrafficRuleDraft) = draft := by rw [hs, he]
    exact ⟨draft.direction, hd, kind, hk, draft.action, ha, (), by rw [hdraft]; exact hv, hdraft⟩

theorem draftFromUpdate_valid (h : draftFromUpdate existing request = .ok draft) : draft.Valid := by
  obtain ⟨_, ⟨_, _, ha⟩, _, _, hv⟩ := draftFromUpdate_ok_iff.mp h
  exact ⟨hv, (actionOf_ok ha).2⟩

/-- A rule still has the values it had before in every field the request leaves out. -/
structure KeepsLeftOut (request : UpdateTrafficRuleRequest) (before now : TrafficRule) :
    Prop where
  direction : request.direction = none → now.direction = before.direction
  selector : request.selector = none → now.selector = before.selector
  enabled : request.enabled = none → now.enabled = before.enabled
  kind : request.action = none → now.action.action = before.action.action
  rate : request.rateBytesPerS = none → request.mergedKind before = .ok .limit →
    now.action.rates.1 = before.action.rates.1

/-- Merging into the later rule gives the draft of the earlier one exactly when the
fields the request leaves out are as they were. -/
theorem draftFromUpdate_eq_iff (h : draftFromUpdate existing request = .ok draft) :
    draftFromUpdate now request = .ok draft ↔ KeepsLeftOut request existing now := by
  obtain ⟨hd, ⟨kind, hk, ha⟩, hs, he, hv⟩ := draftFromUpdate_ok_iff.mp h
  rw [draftFromUpdate_ok_iff]
  constructor
  · rintro ⟨hd', ⟨kind', hk', ha'⟩, hs', he', _⟩
    have hkind : kind' = kind := (actionOf_ok ha').1.symm.trans (actionOf_ok ha).1
    subst hkind
    constructor
    · intro hn
      simp only [mergedDirection, hn] at hd hd'
      exact Except.ok.inj (hd'.trans hd.symm)
    · intro hn
      simp only [hn, Option.getD_none] at hs hs'
      exact hs'.trans hs.symm
    · intro hn
      simp only [hn, Option.getD_none] at he he'
      exact he'.trans he.symm
    · intro hn
      simp only [mergedKind, hn] at hk hk'
      exact Except.ok.inj (hk'.trans hk.symm)
    · intro hn hlimit
      obtain rfl := Except.ok.inj (hk.symm.trans hlimit)
      simp only [actionOf, hn, Option.getD_none, Except.ok.injEq] at ha ha'
      have hrates := ha'.trans ha.symm
      simp only [ActionSpec.limit.injEq] at hrates
      exact hrates.1
  · rintro ⟨hdirection, hselector, henabled, hkind, hrate⟩
    have hk' : request.mergedKind now = .ok kind := by
      rw [← hk]
      unfold mergedKind
      split
      · rfl
      · next hn => rw [hkind hn]
    refine ⟨?_, ⟨kind, hk', ?_⟩, ?_, ?_, hv⟩
    · rw [← hd]
      unfold mergedDirection
      split
      · rfl
      · next hn => rw [hdirection hn]
    · rw [← ha]
      cases kind with
      | block => rfl
      | limit =>
        cases hn : request.rateBytesPerS with
        | some rate => rfl
        | none => rw [hrate hn hk]
    · rw [← hs]
      cases hn : request.selector with
      | some selector => rfl
      | none => exact hselector hn
    · rw [← he]
      cases hn : request.enabled with
      | some enabled => rfl
      | none => exact henabled hn

end Merge

/-! ## Reading a draft back -/

theorem TrafficRuleDraft.Valid.rates_lt {draft : TrafficRuleDraft} (h : draft.Valid) :
    draft.action.rates.1 < 2 ^ 63 ∧ draft.action.rates.2 < 2 ^ 63 := by
  rw [h.burst, and_self]
  have hok := h.ok
  obtain ⟨action, direction, selector, enabled⟩ := draft
  cases action with
  | block => norm_num [ActionSpec.rates]
  | limit rate burst =>
    simp only [ActionSpec.rates]
    by_contra hlt
    have hrate : ¬ (minRateBytesPerS ≤ rate ∧ rate ≤ maxRateBytesPerS) := by
      unfold maxRateBytesPerS
      omega
    unfold validateDraft validateRule at hok
    simp only [ActionSpec.validate, if_pos hrate] at hok
    cases hs : selector.validate with
    | error e => simp [hs, bind, Except.bind, Except.mapError] at hok
    | ok u =>
      simp only [hs, bind, Except.bind] at hok
      split at hok <;> simp [Except.mapError] at hok

/-- A row written from a valid draft reads back as the rule of the draft. -/
theorem intoRecord_writeTo {draft : TrafficRuleDraft} (h : draft.Valid) (now : ℤ)
    (row : RawTrafficRule) : (draft.writeTo now row).intoRecord = .ok {
      rule := ⟨.ofNat row.id, draft.action, draft.direction, draft.selector, draft.enabled⟩
      createdAt := unixMillisTime row.createdAtMs
      updatedAt := unixMillisTime now } := by
  obtain ⟨hrate, hburst⟩ := h.rates_lt
  obtain ⟨action, direction, selector, enabled⟩ := draft
  unfold RawTrafficRule.intoRecord TrafficRuleDraft.writeTo
  simp only [actionFromName_actionName, RuleDirection.fromName_asStr, Option.getD_some,
    asI64_of_lt hrate, asI64_of_lt hburst, Int.toNat_natCast]
  cases action <;> cases enabled <;> rfl

end ZimaScope
