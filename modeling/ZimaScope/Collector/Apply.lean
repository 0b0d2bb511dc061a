import ZimaScope.Policy.Diff

/-! # Applying policy operations

The kernel side of a reconciliation. `applyPolicyOp` runs one operation against
the bounded maps and fails as the map call does; `PolicyMaps.effect` is what
the same operation leaves behind when every call is let through. A list runs
without an error exactly when its write logs are legal, and then the two agree.
-/

namespace ZimaScope

open WriteLog

/-- Why an operation failed: its context and the error of the map call. -/
structure ApplyError where
  context : String
  error : MapError
  deriving DecidableEq, Repr

def withContext {α : Type} (context : String) : Except MapError α → Except ApplyError α
  | .ok a => .ok a
  | .error e => .error ⟨context, e⟩

/-- The state an upsert writes over the one it read. -/
def upsertedState (existing : Option RuleState) (rateBytesPerS burstBytes : ℕ) : RuleState :=
  let state := existing.getD {}
  let state := { state with rateBytesPerS, burstBytes }
  if existing.isNone then { state with tokens := burstBytes } else state

def applyPolicyOp (maps : PolicyMaps) : PolicyOp → Except ApplyError PolicyMaps
  | .setEnabled enabled appRules endpointRules revision =>
    .ok { maps with config := configValue enabled appRules endpointRules revision }
  | .upsertState key rateBytesPerS burstBytes => do
    let state := upsertedState (maps.states.lookup key) rateBytesPerS burstBytes
    let states ← withContext "write rule state"
      (mapInsert ruleStateCapacity maps.states key state)
    .ok { maps with states }
  | .removeState key => do
    let states ← withContext "remove rule state" (mapRemove maps.states key)
    .ok { maps with states }
  | .upsertMatch (.appCgroup d cgroupId) rule => do
    let m ← withContext "insert application cgroup match"
      (mapInsert defaultTrafficRuleCapacity (maps.appCgroup.get d) cgroupId rule)
    .ok { maps with appCgroup := maps.appCgroup.set d m }
  | .upsertMatch (.appComm d comm) rule => do
    let m ← withContext "insert application comm match"
      (mapInsert defaultTrafficRuleCapacity (maps.appComm.get d) comm rule)
    .ok { maps with appComm := maps.appComm.set d m }
  | .upsertMatch (.endpointExact d key) rule => do
    let m ← withContext "insert endpoint match"
      (mapInsert defaultTrafficRuleCapacity (maps.endpointExact.get d) key rule)
    .ok { maps with endpointExact := maps.endpointExact.set d m }
  | .upsertMatch (.endpointCidr d prefixLen addr) rule => do
    let m ← withContext "insert CIDR match"
      (mapInsert defaultTrafficRuleCapacity (maps.endpointCidr.get d) (lpmKey prefixLen addr) rule)
    .ok { maps with endpointCidr := maps.endpointCidr.set d m }
  | .removeMatch (.appCgroup d cgroupId) => do
    let m ← withContext "remove application cgroup match"
      (mapRemove (maps.appCgroup.get d) cgroupId)
    .ok { maps with appCgroup := maps.appCgroup.set d m }
  | .removeMatch (.appComm d comm) => do
    let m ← withContext "remove application comm match" (mapRemove (maps.appComm.get d) comm)
    .ok { maps with appComm := maps.appComm.set d m }
  | .removeMatch (.endpointExact d key) => do
    let m ← withContext "remove endpoint match" (mapRemove (maps.endpointExact.get d) key)
    .ok { maps with endpointExact := maps.endpointExact.set d m }
  | .removeMatch (.endpointCidr d prefixLen addr) => do
    let m ← withContext "remove CIDR match"
      (mapRemove (maps.endpointCidr.get d) (lpmKey prefixLen addr))
    .ok { maps with endpointCidr := maps.endpointCidr.set d m }

/-- Runs the operations in order and stops at the first that fails; the maps
keep what ran before it. -/
def applyOps (maps : PolicyMaps) : List PolicyOp → Except ApplyError Unit × PolicyMaps
  | [] => (.ok (), maps)
  | op :: ops =>
    match applyPolicyOp maps op with
    | .error e => (.error e, maps)
    | .ok maps => applyOps maps ops

/-- Summary returned after a successful apply. -/
structure ApplySummary where
  revision : ℕ
  operations : ℕ
  rules : ℕ
  deriving DecidableEq, Repr

/-- The kernel maps and the program the worker last applied in full. -/
structure CollectorCore where
  maps : PolicyMaps
  appliedPolicy : CompiledPolicy

/-- The core as the worker starts it. -/
def CollectorCore.start : CollectorCore := ⟨.empty, {}⟩

/-- Applies a compiled program; on an error the applied program stays as it was. -/
def CollectorCore.applyPolicy (core : CollectorCore) (program : CompiledPolicy) :
    Except ApplyError ApplySummary × CollectorCore :=
  let operations := diff core.appliedPolicy program
  match applyOps core.maps operations with
  | (.error e, maps) => (.error e, { core with maps })
  | (.ok (), maps) =>
    (.ok ⟨program.revision, operations.length, program.rules.length⟩, ⟨maps, program⟩)

namespace PolicyMaps

/-- What an operation leaves behind when no map call fails. -/
def effect (maps : PolicyMaps) : PolicyOp → PolicyMaps
  | .setEnabled enabled appRules endpointRules revision =>
    { maps with config := configValue enabled appRules endpointRules revision }
  | .upsertState key rate burst =>
    { maps with
      states := maps.states.insert key (upsertedState (maps.states.lookup key) rate burst) }
  | .removeState key => { maps with states := maps.states.erase key }
  | .upsertMatch entry rule => maps.putMatch entry.key rule
  | .removeMatch entry => maps.delMatch entry.key

def effects (maps : PolicyMaps) (ops : List PolicyOp) : PolicyMaps := ops.foldl effect maps

@[simp] theorem effects_nil (maps : PolicyMaps) : maps.effects [] = maps := rfl

@[simp] theorem effects_cons (maps : PolicyMaps) (op : PolicyOp) (ops : List PolicyOp) :
    maps.effects (op :: ops) = (maps.effect op).effects ops := rfl

@[simp] theorem effects_append (maps : PolicyMaps) (ops ops' : List PolicyOp) :
    maps.effects (ops ++ ops') = (maps.effects ops).effects ops' := List.foldl_append

theorem matchAt_effect (maps : PolicyMaps) (op : PolicyOp) :
    (maps.effect op).matchAt = replay maps.matchAt op.matchWrite.toList := by
  cases op with
  | setEnabled | upsertState | removeState => funext k; cases k <;> rfl
  | upsertMatch entry rule => exact matchAt_putMatch _ _ _
  | removeMatch entry => exact matchAt_delMatch _ _

theorem matchAt_effect_of_matchWrite_none {maps : PolicyMaps} {op : PolicyOp}
    (h : op.matchWrite = none) : (maps.effect op).matchAt = maps.matchAt := by
  rw [matchAt_effect, h]
  rfl

theorem params_upsertedState (existing : Option RuleState) (rate burst : ℕ) :
    ((upsertedState existing rate burst).rateBytesPerS,
      (upsertedState existing rate burst).burstBytes) = (rate, burst) := by
  unfold upsertedState
  split <;> rfl

theorem paramsAt_effect (maps : PolicyMaps) (op : PolicyOp) :
    (maps.effect op).paramsAt = replay maps.paramsAt op.stateWrite.toList := by
  cases op with
  | setEnabled => rfl
  | upsertMatch entry rule => cases h : entry.key <;> simp [effect, putMatch, h] <;> rfl
  | removeMatch entry => cases h : entry.key <;> simp [effect, delMatch, h] <;> rfl
  | upsertState key rate burst =>
    funext k
    by_cases hk : k = key
    · subst hk
      simp [effect, paramsAt, PolicyOp.stateWrite, Write.apply, params_upsertedState]
    · simp [effect, paramsAt, PolicyOp.stateWrite, Write.apply, hk]
  | removeState key =>
    funext k
    by_cases hk : k = key
    · subst hk
      simp [effect, paramsAt, PolicyOp.stateWrite, Write.apply]
    · simp [effect, paramsAt, PolicyOp.stateWrite, Write.apply, hk]

/-- The match table replays the match writes of a list. -/
theorem matchAt_effects (maps : PolicyMaps) (ops : List PolicyOp) :
    (maps.effects ops).matchAt = replay maps.matchAt (matchWrites ops) := by
  induction ops generalizing maps with
  | nil => rfl
  | cons op ops ih =>
    rw [effects_cons, ih, matchAt_effect, ← replay_append]
    cases h : op.matchWrite <;> simp [matchWrites, h]

/-- The rule state parameters replay the state writes of a list. -/
theorem paramsAt_effects (maps : PolicyMaps) (ops : List PolicyOp) :
    (maps.effects ops).paramsAt = replay maps.paramsAt (stateWrites ops) := by
  induction ops generalizing maps with
  | nil => rfl
  | cons op ops ih =>
    rw [effects_cons, ih, paramsAt_effect, ← replay_append]
    cases h : op.stateWrite <;> simp [stateWrites, h]

/-- Every match and state write of the list is legal where it runs. -/
structure Accepts (maps : PolicyMaps) (ops : List PolicyOp) : Prop where
  matchLegal : Legal MatchKey.tier defaultTrafficRuleCapacity maps.matchAt (matchWrites ops)
  stateLegal : Legal (fun _ => ()) ruleStateCapacity maps.paramsAt (stateWrites ops)

theorem accepts_append {maps : PolicyMaps} {ops ops' : List PolicyOp} :
    maps.Accepts (ops ++ ops') ↔ maps.Accepts ops ∧ (maps.effects ops).Accepts ops' := by
  constructor
  · rintro ⟨hm, hs⟩
    rw [matchWrites_append, legal_append] at hm
    rw [stateWrites_append, legal_append] at hs
    exact ⟨⟨hm.1, hs.1⟩, ⟨by rw [matchAt_effects]; exact hm.2, by rw [paramsAt_effects]; exact hs.2⟩⟩
  · rintro ⟨⟨hm, hs⟩, ⟨hm', hs'⟩⟩
    rw [matchAt_effects] at hm'
    rw [paramsAt_effects] at hs'
    exact ⟨by rw [matchWrites_append, legal_append]; exact ⟨hm, hm'⟩,
      by rw [stateWrites_append, legal_append]; exact ⟨hs, hs'⟩⟩

theorem accepts_cons {maps : PolicyMaps} {op : PolicyOp} {ops : List PolicyOp} :
    maps.Accepts (op :: ops) ↔ maps.Accepts [op] ∧ (maps.effect op).Accepts ops := by
  rw [← List.singleton_append, accepts_append]
  rfl

theorem accepts_setEnabled (maps : PolicyMaps) (a b c : Bool) (r : UInt32) :
    maps.Accepts [.setEnabled a b c r] := ⟨trivial, trivial⟩

theorem accepts_upsertState {maps : PolicyMaps} {key : BucketKey} {rate burst : ℕ} :
    maps.Accepts [.upsertState key rate burst] ↔
      key ∈ maps.states ∨ maps.states.keys.card < ruleStateCapacity := by
  have hs : maps.Accepts [.upsertState key rate burst] ↔
      (maps.paramsAt key).isSome ∨
        (occupied (fun _ => ()) maps.paramsAt ()).encard < ruleStateCapacity :=
    ⟨fun h => h.stateLegal.1, fun h => ⟨trivial, h, trivial⟩⟩
  rw [hs, isSome_paramsAt, encard_occupied_states, Nat.cast_lt]

theorem accepts_removeState {maps : PolicyMaps} {key : BucketKey} :
    maps.Accepts [.removeState key] ↔ key ∈ maps.states := by
  rw [← isSome_paramsAt]
  exact ⟨fun h => h.stateLegal.1, fun h => ⟨trivial, h, trivial⟩⟩

theorem accepts_upsertMatch {maps : PolicyMaps} {entry : MatchEntry} {ref : RuleRef} :
    maps.Accepts [.upsertMatch entry ref] ↔
      (maps.matchAt entry.key).isSome ∨ maps.tierCard entry.key < defaultTrafficRuleCapacity := by
  have hs : maps.Accepts [.upsertMatch entry ref] ↔ (maps.matchAt entry.key).isSome ∨
      (occupied MatchKey.tier maps.matchAt entry.key.tier).encard < defaultTrafficRuleCapacity :=
    ⟨fun h => h.matchLegal.1, fun h => ⟨⟨h, trivial⟩, trivial⟩⟩
  rw [hs, encard_occupied, Nat.cast_lt]

theorem accepts_removeMatch {maps : PolicyMaps} {entry : MatchEntry} :
    maps.Accepts [.removeMatch entry] ↔ (maps.matchAt entry.key).isSome :=
  ⟨fun h => h.matchLegal.1, fun h => ⟨⟨h, trivial⟩, trivial⟩⟩

end PolicyMaps

section Strict

variable {κ α β : Type} [DecidableEq κ]

theorem withContext_mapInsert {context : String} {n : ℕ} {m : BpfMap κ α} {k : κ} {v : α}
    {f : BpfMap κ α → Except ApplyError β} {b : β} :
    (withContext context (mapInsert n m k v) >>= f) = .ok b ↔
      (k ∈ m ∨ m.keys.card < n) ∧ f (m.insert k v) = .ok b := by
  unfold mapInsert
  split
  · next h => simp [withContext, bind, Except.bind, h]
  · next h => simp [withContext, bind, Except.bind, h]

theorem withContext_mapRemove {context : String} {m : BpfMap κ α} {k : κ}
    {f : BpfMap κ α → Except ApplyError β} {b : β} :
    (withContext context (mapRemove m k) >>= f) = .ok b ↔ k ∈ m ∧ f (m.erase k) = .ok b := by
  unfold mapRemove
  split
  · next h => simp [withContext, bind, Except.bind, h]
  · next h => simp [withContext, bind, Except.bind, h]

end Strict

/-- One operation succeeds exactly when the maps accept it, with its effect. -/
theorem applyPolicyOp_ok_iff {maps maps' : PolicyMaps} {op : PolicyOp} :
    applyPolicyOp maps op = .ok maps' ↔ maps.Accepts [op] ∧ maps.effect op = maps' := by
  cases op with
  | setEnabled a b c r =>
    simp [applyPolicyOp, PolicyMaps.effect, PolicyMaps.accepts_setEnabled]
  | upsertState key rate burst =>
    simp [applyPolicyOp, PolicyMaps.effect, withContext_mapInsert, PolicyMaps.accepts_upsertState]
  | removeState key =>
    simp [applyPolicyOp, PolicyMaps.effect, withContext_mapRemove, PolicyMaps.accepts_removeState]
  | upsertMatch entry ref =>
    rw [PolicyMaps.accepts_upsertMatch]
    cases entry <;>
      simp [applyPolicyOp, PolicyMaps.effect, withContext_mapInsert, MatchEntry.key,
        PolicyMaps.putMatch, PolicyMaps.matchAt, PolicyMaps.tierCard, Finmap.lookup_isSome]
  | removeMatch entry =>
    rw [PolicyMaps.accepts_removeMatch]
    cases entry <;>
      simp [applyPolicyOp, PolicyMaps.effect, withContext_mapRemove, MatchEntry.key,
        PolicyMaps.delMatch, PolicyMaps.matchAt, Finmap.lookup_isSome]

/-- A list runs through exactly when the maps accept it, with its effects. -/
theorem applyOps_ok_iff {maps maps' : PolicyMaps} {ops : List PolicyOp} :
    applyOps maps ops = (.ok (), maps') ↔ maps.Accepts ops ∧ maps.effects ops = maps' := by
  induction ops generalizing maps with
  | nil =>
    have ha : maps.Accepts [] := ⟨trivial, trivial⟩
    simp [applyOps, ha]
  | cons op ops ih =>
    rw [PolicyMaps.accepts_cons, PolicyMaps.effects_cons]
    unfold applyOps
    cases h : applyPolicyOp maps op with
    | error e =>
      have ha : ¬ maps.Accepts [op] := fun ha => by
        rw [applyPolicyOp_ok_iff.mpr ⟨ha, rfl⟩] at h
        simp at h
      simp [ha]
    | ok m =>
      obtain ⟨ha, rfl⟩ := applyPolicyOp_ok_iff.mp h
      simp [ha, ih]

/-- A run executes a prefix of its operations; an error means that the next one failed. -/
theorem applyOps_executes (maps : PolicyMaps) (ops : List PolicyOp) :
    ∃ executed rest, ops = executed ++ rest ∧
      applyOps maps executed = (.ok (), (applyOps maps ops).2) ∧
      ((applyOps maps ops).1 = .ok () → rest = []) := by
  induction ops generalizing maps with
  | nil => exact ⟨[], [], rfl, rfl, fun _ => rfl⟩
  | cons op ops ih =>
    cases h : applyPolicyOp maps op with
    | error e => exact ⟨[], op :: ops, rfl, by simp [applyOps, h], by simp [applyOps, h]⟩
    | ok m =>
      obtain ⟨executed, rest, rfl, he, hr⟩ := ih m
      exact ⟨op :: executed, rest, rfl, by simpa [applyOps, h] using he,
        by simpa [applyOps, h] using hr⟩

namespace CollectorCore

theorem applyPolicy_ok_iff {core core' : CollectorCore} {program : CompiledPolicy}
    {summary : ApplySummary} :
    core.applyPolicy program = (.ok summary, core') ↔
      core.maps.Accepts (diff core.appliedPolicy program) ∧
        ⟨core.maps.effects (diff core.appliedPolicy program), program⟩ = core' ∧
        ⟨program.revision, (diff core.appliedPolicy program).length, program.rules.length⟩ =
          summary := by
  unfold applyPolicy
  constructor
  · intro h
    simp only at h
    split at h
    · simp at h
    · next maps hm =>
      obtain ⟨ha, rfl⟩ := applyOps_ok_iff.mp hm
      simp only [Prod.mk.injEq, Except.ok.injEq] at h
      exact ⟨ha, h.2, h.1⟩
  · rintro ⟨ha, rfl, rfl⟩
    simp only [applyOps_ok_iff.mpr ⟨ha, rfl⟩]

end CollectorCore

end ZimaScope
