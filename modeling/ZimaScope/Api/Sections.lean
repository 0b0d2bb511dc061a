import ZimaScope.Api.Requests

/-! # Storage sections

What one storage section of a request leaves behind: it never touches the
enforcement state or lowers the revision, and as long as no statement fails
after the section's write, an error means that nothing was stored.
-/

namespace ZimaScope

/-- The settings in memory are the stored ones. -/
def Inner.Synced (inner : Inner) : Prop := inner.settings = inner.db.loadSettings.1

/-- The daemon as it comes up: persisted state loaded, no collector attached yet. -/
structure World.Initial {ι : Type} (w : World ι) : Prop where
  handle : w.inner.policyHandle = false
  policy : w.inner.policy = {}
  synced : w.inner.Synced
  core : w.core.appliedPolicy = {}
  phase : ∀ i, w.phase i = .waiting
  channel : w.channel = []
  clock : w.clock = 0
  sent : w.sent = 0
  installed : w.installed = 0
  recorded : w.recorded = 0
  journal : w.journal = []

theorem World.start_initial {ι : Type} {inner : Inner} (hh : inner.policyHandle = false)
    (hp : inner.policy = {}) (hs : inner.Synced) : (World.start inner : World ι).Initial :=
  ⟨hh, hp, hs, rfl, fun _ => rfl, rfl, rfl, rfl, rfl, rfl, rfl⟩

/-- How a statement after the write of a request's first section fails: the one that reads
the row back, or the retention deletes of a settings save. -/
def Request.lateFault (faults : List (Option String)) : Request → Option String
  | .create _ => faults.tail.tail.headD none
  | .putSettings _ | .patchSettings _ => faults.tail.headD none
  | .startup | .update .. | .delete _ => none

/-- A section that stops at an error leaves the storage as it was, unless a statement
after its write failed. -/
structure Inner.Section {α : Type} (inner : Inner) (late : Option String)
    (result : Except ApiError α × Inner) : Prop where
  policy : result.2.policy = inner.policy
  revision : inner.db.rulesRevision ≤ result.2.db.rulesRevision
  synced : late = none → inner.Synced → result.2.Synced
  refused : late = none → ∀ e, result.1 = .error e →
    result.2.db = inner.db ∧ result.2.settings = inner.settings

namespace RuleDb

variable {α : Type} {db : RuleDb} {faults : List (Option String)} {now : ℤ}
  {draft : TrafficRuleDraft} {late : Option String}

/-- The storage went forward without touching the settings row. -/
def Forward (db db' : RuleDb) : Prop :=
  db.rulesRevision ≤ db'.rulesRevision ∧ db'.settings = db.settings

theorem Forward.refl (db : RuleDb) : Forward db db := ⟨le_rfl, rfl⟩

/-- A rule action goes forward, and stores nothing when it stops before a late failure. -/
def Settles (db : RuleDb) (late : Option String) (x : Action α) (faults : List (Option String)) :
    Prop :=
  Storage.wp x (fun _ c => db.Forward c.store)
    (fun _ c => db.Forward c.store ∧ (late = none → c.store = db)) ⟨db, faults⟩

theorem wp_nextRevision {Q : Unit → Conn RuleDb → Prop} {E : ApiError → Conn RuleDb → Prop}
    {c : Conn RuleDb} : Storage.wp nextRevision Q E c ↔
      Q () { c with store.rulesRevision := c.store.rulesRevision + 1 } := Iff.rfl

/-- A rule that is there is read with one statement. -/
theorem wp_trafficRule {id : ℕ} {row : RawTrafficRule} {record : TrafficRuleRecord}
    {c : Conn RuleDb} {Q : TrafficRuleRecord → Conn RuleDb → Prop}
    {E : ApiError → Conn RuleDb → Prop} (hrow : c.store.trafficRules.find id = some row)
    (hrecord : row.intoRecord = .ok record) : Storage.wp (trafficRule id) Q E c ↔
      (c.faults.headD none = none → Q record ⟨c.store, c.faults.tail⟩) ∧
        ∀ error, c.faults.headD none = some error →
          E (.ofStorage error) ⟨c.store, c.faults.tail⟩ := by
  unfold trafficRule
  rw [Storage.wp_bind, Storage.wp_query]
  simp only [hrow, Storage.wp_ofExcept, hrecord, Except.ok.injEq, forall_eq', reduceCtorEq,
    IsEmpty.forall_iff, implies_true, and_true]

/-- An error the first statements stop at, with nothing written yet. -/
theorem Settles.after_query {β : Type} {x : Action α} {f : α → Action β}
    (hx : Storage.wp x (fun a c => c.store = db ∧ db.Settles late (f a) c.faults)
      (fun _ c => c.store = db) ⟨db, faults⟩) : db.Settles late (x >>= f) faults := by
  unfold Settles
  rw [Storage.wp_bind]
  refine Storage.wp_mono hx ?_ fun _ c h => ⟨h ▸ .refl db, fun _ => h⟩
  rintro a ⟨store, faults⟩ ⟨rfl, h⟩
  exact h

theorem Settles.error {e : ApiError} :
    db.Settles late (Storage.ofExcept (.error e) : Action α) faults :=
  ⟨.refl db, fun _ => rfl⟩

theorem insertTrafficRule_settles (hd : draft.Valid) :
    db.Settles (faults.tail.headD none) (insertTrafficRule draft now) faults := by
  unfold Settles insertTrafficRule
  rw [Storage.wp_bind, Storage.wp_statement]
  have hforward : db.Forward { db with
      trafficRules := db.trafficRules.insert draft now
      rulesRevision := db.rulesRevision + 1 } := ⟨Nat.le_succ _, rfl⟩
  constructor
  · intro _
    rw [Storage.wp_bind, wp_nextRevision]
    refine (wp_trafficRule RuleTable.find_insert (intoRecord_writeTo hd now _)).mpr ⟨?_, ?_⟩
    · exact fun _ => hforward
    · intro error he
      exact ⟨hforward, fun hl => absurd (hl.symm.trans he) (by simp)⟩
  · intro error _
    exact ⟨.refl db, fun _ => rfl⟩

theorem updateTrafficRule_settles {id : ℕ} (hd : draft.Valid) :
    db.Settles (faults.tail.headD none) (updateTrafficRule id draft now) faults := by
  unfold Settles updateTrafficRule
  rw [Storage.wp_bind, Storage.wp_statement]
  constructor
  · intro _
    cases hrow : db.trafficRules.find id with
    | none =>
      have hdb : ({ db with trafficRules := db.trafficRules.update id draft now } : RuleDb) = db := by
        rw [RuleTable.update_of_find_none hrow]
      refine ⟨?_, fun _ => ?_⟩
      · exact hdb ▸ .refl db
      · exact hdb
    | some row =>
      have hforward : db.Forward { db with
          trafficRules := db.trafficRules.update id draft now
          rulesRevision := db.rulesRevision + 1 } := ⟨Nat.le_succ _, rfl⟩
      simp only [Option.isSome_some, Bool.not_true, Bool.false_eq_true, if_false]
      rw [Storage.wp_bind, wp_nextRevision]
      refine (wp_trafficRule (RuleTable.find_update hrow) (intoRecord_writeTo hd now _)).mpr ⟨?_, ?_⟩
      · exact fun _ => hforward
      · intro error he
        exact ⟨hforward, fun hl => absurd (hl.symm.trans he) (by simp)⟩
  · intro error _
    exact ⟨.refl db, fun _ => rfl⟩

theorem deleteTrafficRule_settles {id : ℕ} :
    db.Settles none (deleteTrafficRule id) faults := by
  unfold Settles deleteTrafficRule
  rw [Storage.wp_bind, Storage.wp_statement]
  constructor
  · intro _
    cases hrow : db.trafficRules.find id with
    | none =>
      have hdb : ({ db with trafficRules := db.trafficRules.delete id } : RuleDb) = db := by
        rw [RuleTable.delete_of_find_none hrow]
      exact ⟨hdb ▸ .refl db, fun _ => hdb⟩
    | some row => exact ⟨Nat.le_succ _, rfl⟩
  · intro error _
    exact ⟨.refl db, fun _ => rfl⟩

theorem trafficRule_readOnly {id : ℕ} : (trafficRule id).ReadOnly := by
  refine .bind .query fun row => ?_
  cases row <;> exact .ofExcept

theorem listTrafficRules_reads : Storage.wp listTrafficRules
    (fun records c => c = ⟨db, faults.tail⟩ ∧
      db.trafficRules.rows.mapM RawTrafficRule.intoRecord = .ok records)
    (fun _ c => c.store = db) ⟨db, faults⟩ := by
  unfold listTrafficRules
  rw [Storage.wp_bind, Storage.wp_query]
  refine ⟨fun _ => ?_, fun _ _ => rfl⟩
  rw [Storage.wp_ofExcept]
  exact ⟨fun records h => ⟨rfl, h⟩, fun _ _ => rfl⟩

theorem wp_saveSettings (db : RuleDb) (faults : List (Option String)) (settings : Settings)
    (version : ℕ) :
    Storage.wp (saveSettings settings version)
      (fun _ c => c.store = { db with settings := some (settings, version) })
      (fun _ c => db.rulesRevision ≤ c.store.rulesRevision ∧
        (faults.tail.headD none = none → c.store = db)) ⟨db, faults⟩ := by
  unfold saveSettings enforcePolicy
  rw [Storage.wp_bind, Storage.wp_execute]
  refine ⟨fun _ => Storage.wp_execute.mpr ⟨fun _ => rfl, fun error he => ⟨le_rfl, fun hl => ?_⟩⟩,
    fun _ _ => ⟨le_rfl, fun _ => rfl⟩⟩
  exact absurd (hl.symm.trans he) (by simp)

end RuleDb

namespace Inner

variable {α β : Type} {inner : Inner} {input : Input} {late : Option String}

theorem Section.of_settles {x : RuleDb.Action α} (h : inner.db.Settles late x input.faults) :
    inner.Section late (inner.run input.faults x) := by
  unfold RuleDb.Settles Storage.wp at h
  unfold run
  split at h
  · next a c hx =>
    rw [hx]
    obtain ⟨hr, hs⟩ := h
    refine ⟨rfl, hr, fun _ hsync => ?_, fun _ e he => by simp at he⟩
    rw [Synced, RuleDb.loadSettings, hs]
    exact hsync
  · next e c hx =>
    rw [hx]
    obtain ⟨⟨hr, hs⟩, hdb⟩ := h
    refine ⟨rfl, hr, fun _ hsync => ?_, fun hl e _ => ⟨hdb hl, rfl⟩⟩
    rw [Synced, RuleDb.loadSettings, hs]
    exact hsync

theorem Section.map {result : Except ApiError α × Inner} (h : inner.Section late result)
    (f : α → β) : inner.Section late (result.1.map f, result.2) := by
  obtain ⟨outcome, inner'⟩ := result
  refine ⟨h.policy, h.revision, h.synced, fun hl e he => ?_⟩
  cases outcome with
  | ok a => simp [Except.map] at he
  | error e' => exact h.refused hl e' rfl

theorem createRule_section {draft : TrafficRuleDraft} (hd : draft.Valid) :
    inner.Section (input.faults.tail.tail.headD none) (inner.createRule input draft) := by
  refine .of_settles (.after_query (Storage.wp_mono RuleDb.listTrafficRules_reads ?_ fun _ _ h => h))
  rintro records _ ⟨rfl, _⟩
  refine ⟨rfl, ?_⟩
  split
  · exact .error
  · exact RuleDb.insertTrafficRule_settles hd

theorem run_snd_of_readOnly (inner : Inner) {x : RuleDb.Action α} (hx : x.ReadOnly)
    (faults : List (Option String)) : (inner.run faults x).2 = inner := by
  unfold run
  rw [hx]

theorem readDraft_snd (inner : Inner) (input : Input) (id : UInt32) (request : UpdateTrafficRuleRequest) :
    (inner.readDraft input id request).2 = inner :=
  run_snd_of_readOnly inner (.bind RuleDb.trafficRule_readOnly fun _ =>
    .bind .ofExcept fun _ => .pure) _

theorem applySettings_section {settings : Settings} :
    inner.Section (input.faults.tail.headD none) (inner.applySettings input settings) := by
  have hsave := RuleDb.wp_saveSettings inner.db input.faults settings (inner.settingsVersion + 1)
  unfold Storage.wp at hsave
  unfold applySettings run
  simp only
  split at hsave
  · next hx =>
    rw [hx]
    simp only [hsave]
    exact ⟨rfl, le_rfl, fun _ _ => rfl, fun _ e he => by simp at he⟩
  · next c hx =>
    rw [hx]
    obtain ⟨hforward, hdb⟩ := hsave
    refine ⟨rfl, hforward, fun hl hsync => ?_, fun hl e _ => ⟨hdb hl, rfl⟩⟩
    rw [Synced, hdb hl]
    exact hsync

/-- A settings section stores and installs the settings together, unless the retention
deletes fail. -/
theorem changeSettings_section {body : Settings} :
    inner.Section (input.faults.tail.headD none) (inner.changeSettings input body) := by
  unfold changeSettings
  simp only
  split
  · exact ⟨rfl, le_rfl, fun _ h => h, fun _ _ _ => ⟨rfl, rfl⟩⟩
  · exact applySettings_section.map _

/-- Every section of a request that is served in one go. -/
theorem serve_section (inner : Inner) (input : Input) {request : Request} (hu : ∀ id r, request ≠ .update id r) :
    inner.Section (request.lateFault input.faults) (inner.serve input request) := by
  cases request with
  | startup => exact ⟨rfl, le_rfl, fun _ h => h, fun _ e he => by simp [serve] at he⟩
  | create request =>
    simp only [serve]
    cases hd : draftFromCreate request with
    | error e => exact ⟨rfl, le_rfl, fun _ h => h, fun _ _ _ => ⟨rfl, rfl⟩⟩
    | ok draft => exact (createRule_section (draftFromCreate_valid hd)).map _
  | update id request => exact absurd rfl (hu id request)
  | delete id => exact (Section.of_settles RuleDb.deleteTrafficRule_settles).map _
  | putSettings body => exact changeSettings_section.map _
  | patchSettings patch => exact changeSettings_section.map _

theorem run_listTrafficRules (inner : Inner) (faults : List (Option String)) :
    inner.run faults RuleDb.listTrafficRules =
      ((match faults.headD none with
        | some error => .error (.ofStorage error)
        | none => inner.db.trafficRules.rows.mapM RawTrafficRule.intoRecord), inner) := by
  unfold run RuleDb.listTrafficRules
  simp only [Storage.bind_apply, Storage.query, Storage.statement, Storage.ofExcept]
  cases faults.headD none <;> rfl

/-- A section that compiles leaves everything as it was, and compiles all stored rules. -/
theorem compilePolicy_ok {inner' : Inner} {faults : List (Option String)} {evidence : Evidence}
    {compiled : Compiled} (h : inner.compilePolicy faults evidence = (.ok compiled, inner')) :
    inner' = inner ∧ inner.policyHandle = true ∧ ∃ records program,
      inner.db.trafficRules.rows.mapM RawTrafficRule.intoRecord = .ok records ∧
      compile systemResolver evidence (records.map TrafficRuleRecord.rule) inner.db.rulesRevision
        inner.settings.trafficRules.enabled = .ok program ∧
      compiled = ⟨program.policy, unresolvedMap program.unresolved⟩ := by
  unfold compilePolicy at h
  split at h
  · simp at h
  · next hhandle =>
    rw [run_listTrafficRules] at h
    simp only at h
    split at h
    · simp at h
    · next records hrecords =>
      split at h
      · simp at h
      · next program hprogram =>
        simp only [Prod.mk.injEq, Except.ok.injEq] at h
        obtain ⟨rfl, rfl⟩ := h
        refine ⟨rfl, by simpa using hhandle, records, program, ?_, hprogram, rfl⟩
        split at hrecords
        · simp at hrecords
        · exact hrecords

/-- A section that does not compile changes at most the recorded error. -/
theorem compilePolicy_error {inner' : Inner} {faults : List (Option String)} {evidence : Evidence}
    {e : String} (h : inner.compilePolicy faults evidence = (.error e, inner')) :
    ∃ lastError, inner' = { inner with policy.lastError := lastError } := by
  unfold compilePolicy at h
  split at h
  · exact ⟨_, (Prod.mk.inj h).2.symm⟩
  · rw [run_listTrafficRules] at h
    simp only at h
    refine ⟨inner.policy.lastError, ?_⟩
    split at h
    · exact (Prod.mk.inj h).2.symm
    · split at h
      · exact (Prod.mk.inj h).2.symm
      · simp at h

end Inner

namespace Inner

variable (inner : Inner) (policy : PolicyRuntime) (input : Input)

/-- A storage section neither reads nor changes the enforcement state. -/
theorem run_policy {α : Type} (faults : List (Option String)) (x : RuleDb.Action α) :
    ({ inner with policy }.run faults x) =
      ((inner.run faults x).1, { (inner.run faults x).2 with policy }) := rfl

theorem changeSettings_policy (body : Settings) : { inner with policy }.changeSettings input body =
    ((inner.changeSettings input body).1, { (inner.changeSettings input body).2 with policy }) := by
  unfold changeSettings applySettings
  simp only
  split
  · rfl
  · simp only [run]
    generalize RuleDb.saveSettings body.normalize (inner.settingsVersion + 1) _ = result
    obtain ⟨_ | _, _⟩ := result <;> rfl

theorem serve_policy (request : Request) : { inner with policy }.serve input request =
    ((inner.serve input request).1, { (inner.serve input request).2 with policy }) := by
  cases request with
  | startup => rfl
  | create request =>
    simp only [serve]
    cases draftFromCreate request <;> rfl
  | update id request => rfl
  | delete id => rfl
  | putSettings body =>
    simp only [serve]
    rw [changeSettings_policy]
  | patchSettings patch =>
    simp only [serve]
    rw [changeSettings_policy]

/-- No storage section touches the enforcement state. -/
theorem policy_serve (request : Request) :
    (inner.serve input request).2.policy = inner.policy :=
  congrArg (fun result => result.2.policy) (serve_policy inner inner.policy input request)

end Inner

def Phase.Merged (request : Request) : Phase → Prop
  | .drafted id existing draft =>
    ∃ r, request = .update id r ∧ draftFromUpdate existing r = .ok draft
  | _ => True

theorem Phase.Merged.reply {request : Request} {phase : Phase} (h : phase.Merged request)
    (result : Except String ApplySummary) : (World.reply result phase).Merged request := by
  cases phase with
  | queued => trivial
  | _ => exact h

namespace World

variable {ι : Type} [DecidableEq ι] {requests : ι → Request} {w w' : World ι} {event : Event ι}

theorem setPhase_self (w : World ι) (i : ι) (phase : Phase) : (w.setPhase i phase).phase i = phase :=
  Function.update_self ..

theorem setPhase_of_ne (w : World ι) {i j : ι} (h : j ≠ i) (phase : Phase) :
    (w.setPhase i phase).phase j = w.phase j := Function.update_of_ne h ..

/-- A statement about every phase, after one of them changed. -/
theorem forall_setPhase {P : ι → Phase → Prop} {i : ι} {phase : Phase}
    (h : ∀ j, P j (w.phase j)) (hi : P i phase) : ∀ j, P j ((w.setPhase i phase).phase j) := by
  intro j
  by_cases hj : j = i
  · subst hj
    rwa [setPhase_self]
  · rw [setPhase_of_ne w hj]
    exact h j

/-- The draft of a drafted update was merged from the rule it read. -/
def Merged (requests : ι → Request) (w : World ι) : Prop :=
  ∀ i, (w.phase i).Merged (requests i)

theorem readDraft_ok {inner inner' : Inner} {input : Input} {id : UInt32}
    {r : UpdateTrafficRuleRequest} {existing : TrafficRule} {draft : TrafficRuleDraft}
    (h : inner.readDraft input id r = (.ok (existing, draft), inner')) :
    draftFromUpdate existing r = .ok draft := by
  have hx := congrArg Prod.fst h
  obtain ⟨record, c, _, hx⟩ := Storage.fst_bind_eq_ok.mp hx
  obtain ⟨merged, c', hd, hx⟩ := Storage.fst_bind_eq_ok.mp hx
  obtain ⟨rfl, rfl⟩ := Prod.mk.inj (Except.ok.inj hx)
  exact (Prod.mk.inj hd).1

theorem Merged.setPhase {i : ι} {phase : Phase} (hw : w.Merged requests)
    (hp : phase.Merged (requests i)) : (w.setPhase i phase).Merged requests :=
  forall_setPhase (P := fun i phase => phase.Merged (requests i)) hw hp

theorem Merged.settle {i : ι} {input : Input} {outcome : Except ApiError Answer} {inner : Inner}
    (hw : w.Merged requests) : (w.settle i input outcome inner).Merged requests :=
  Merged.setPhase (w := { w with inner, journal := _ }) hw (by cases outcome <;> trivial)

theorem Merged.step (hw : w.Merged requests) (h : Moves requests w event w') :
    w'.Merged requests := by
  cases h with
  | drafted hp hr hread => exact Merged.setPhase (w := { w with inner := _ }) hw ⟨_, hr, readDraft_ok hread⟩
  | decided h => exact hw.settle
  | uncompiled hp hc => exact Merged.setPhase (w := { w with inner := _ }) hw trivial
  | compiled hp hc => exact Merged.setPhase (w := { w with inner := _, clock := _ }) hw trivial
  | refused hp hn => exact hw.setPhase trivial
  | sent hp hn => exact Merged.setPhase (w := { w with channel := _, sent := _ }) hw trivial
  | recorded hp => exact Merged.setPhase (w := { w with inner := _, recorded := _ }) hw trivial
  | responded hp => exact hw.setPhase trivial
  | worked hn hc ha =>
    exact Merged.setPhase (w := { w with core := _, channel := _, installed := _ }) hw ((hw _).reply _)
  | stopped => exact fun i => (hw i).reply _
  | kernel => exact hw

/-- The late fault of the storage section `i` is about to run. -/
def lateFault (requests : ι → Request) (w : World ι) (i : ι) (input : Input) : Option String :=
  match w.phase i with
  | .waiting => (requests i).lateFault input.faults
  | .drafted .. => input.faults.tail.headD none
  | _ => none

omit [DecidableEq ι] in
/-- A request that decides ran one storage section. -/
theorem Decides.section {i : ι} {input entry : Input} {result : Except ApiError Answer × Inner}
    (h : Decides requests w i input entry result) (hw : w.Merged requests) :
    w.inner.Section (w.lateFault requests i input) result := by
  cases h with
  | served hp hu =>
    simp only [lateFault, hp]
    exact Inner.serve_section w.inner input hu
  | unread hp hr hread =>
    obtain rfl := (congrArg Prod.snd hread).symm.trans (Inner.readDraft_snd _ _ _ _)
    exact ⟨rfl, le_rfl, fun _ h => h, fun _ _ _ => ⟨rfl, rfl⟩⟩
  | written hp =>
    have hmerged := hw i
    simp only [lateFault, hp] at hmerged ⊢
    obtain ⟨r, _, hdraft⟩ := hmerged
    exact (Inner.Section.of_settles (RuleDb.updateTrafficRule_settles
      (draftFromUpdate_valid hdraft))).map _

end World

end ZimaScope
