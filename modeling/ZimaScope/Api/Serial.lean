import ZimaScope.Api.Sections

/-! # Serial requests

Rule and settings requests against the same requests served one at a time, in
the order in which their storage sections decided. The two agree when no update
writes over a rule that another request changed, in a field the update leaves
out, since the update read it.
-/

namespace ZimaScope

namespace RuleDb

theorem trafficRule_apply (id : ℕ) (db : RuleDb) (faults : List (Option String)) :
    trafficRule id ⟨db, faults⟩ =
      ((match faults.headD none with
        | some error => .error (.ofStorage error)
        | none =>
          match db.trafficRules.find id with
          | some row => row.intoRecord
          | none => .error (.notFound s!"traffic rule {id}")), ⟨db, faults.tail⟩) := by
  unfold trafficRule
  simp only [Storage.bind_apply, Storage.query, Storage.statement]
  cases faults.headD none with
  | some error => rfl
  | none => cases db.trafficRules.find id <;> rfl

/-- Without its row an update answers what reading the row would have answered. -/
theorem updateTrafficRule_of_find_none {id : ℕ} {db : RuleDb} (h : db.trafficRules.find id = none)
    (draft : TrafficRuleDraft) (now : ℤ) (faults : List (Option String)) :
    updateTrafficRule id draft now ⟨db, faults⟩ = trafficRule id ⟨db, faults⟩ := by
  rw [trafficRule_apply]
  unfold updateTrafficRule
  simp only [Storage.bind_apply, Storage.statement, h,
    RuleTable.update_of_find_none h]
  cases faults.headD none <;> rfl

theorem mergeDraft_of_find_none {id : UInt32} {db : RuleDb}
    (h : db.trafficRules.find id.toNat = none) (r : UpdateTrafficRuleRequest)
    (faults : List (Option String)) : ∃ e, trafficRule id.toNat ⟨db, faults⟩ =
        (.error e, ⟨db, faults.tail⟩) ∧
      mergeDraft id r ⟨db, faults⟩ = (.error e, ⟨db, faults.tail⟩) := by
  obtain ⟨e, he⟩ : ∃ e, trafficRule id.toNat ⟨db, faults⟩ = (.error e, ⟨db, faults.tail⟩) := by
    rw [trafficRule_apply, h]
    cases faults.headD none with
    | some error => exact ⟨_, rfl⟩
    | none => exact ⟨_, rfl⟩
  exact ⟨e, he, Storage.bind_of_error he⟩

/-- With one more statement an update that reads first finds the rule and its draft. -/
theorem mergeDraft_of_find {id : UInt32} {db : RuleDb} {row : RawTrafficRule}
    {record : TrafficRuleRecord} {draft : TrafficRuleDraft} {r : UpdateTrafficRuleRequest}
    (hrow : db.trafficRules.find id.toNat = some row) (hrecord : row.intoRecord = .ok record)
    (hd : draftFromUpdate record.rule r = .ok draft) (faults : List (Option String)) :
    mergeDraft id r ⟨db, none :: faults⟩ = (.ok (record.rule, draft), ⟨db, faults⟩) := by
  have hread : trafficRule id.toNat ⟨db, none :: faults⟩ = (.ok record, ⟨db, faults⟩) := by
    rw [trafficRule_apply, hrow, ← hrecord]
    rfl
  unfold mergeDraft
  rw [Storage.bind_of_ok hread, hd]
  rfl

end RuleDb

namespace World

variable {ι : Type} {requests : ι → Request} {w w' : World ι} {i : ι} {input entry : Input}

/-- Where an update writes, its row is gone or still has the values the update read in
every field it leaves out. -/
def Unraced (requests : ι → Request) (w : World ι) : Event ι → Prop
  | .advance i _ =>
    match w.phase i, requests i with
    | .drafted id existing _, .update _ r =>
      ∀ row, w.inner.db.trafficRules.find id.toNat = some row →
        ∃ record, row.intoRecord = .ok record ∧ KeepsLeftOut r existing record.rule
    | _, _ => True
  | _ => True

/-- A section that decides does what the whole request would do in one go. -/
theorem Decides.serve {result : Except ApiError Answer × Inner}
    (h : Decides requests w i input entry result) (hm : w.Merged requests)
    (hu : w.Unraced requests (.advance i input)) :
    w.inner.serve entry (requests i) = result := by
  cases h with
  | served => rfl
  | @unread id r e inner hp hr hread =>
    unfold Inner.readDraft Inner.run at hread
    obtain ⟨he, rfl⟩ := Prod.mk.inj hread
    simp only [hr, Inner.serve, Inner.run]
    rw [Storage.bind_of_error (Prod.ext he rfl)]
    rfl
  | @written id existing draft hp =>
    have hmerged := hm i
    rw [hp] at hmerged
    obtain ⟨r, hr, hdraft⟩ := hmerged
    simp only [Unraced, hp, hr] at hu
    simp only [hr, Inner.serve, writeInput, Inner.writeDraft]
    cases hrow : w.inner.db.trafficRules.find id.toNat with
    | none =>
      obtain ⟨e, he, hmerge⟩ := RuleDb.mergeDraft_of_find_none hrow r input.faults
      simp only [Option.isSome_none, Bool.false_eq_true, if_false, Inner.run]
      rw [Storage.bind_of_error hmerge, RuleDb.updateTrafficRule_of_find_none hrow, he]
    | some row =>
      obtain ⟨record, hrecord, hkeeps⟩ := hu row hrow
      have hmerge := RuleDb.mergeDraft_of_find hrow hrecord
        ((draftFromUpdate_eq_iff hdraft).mpr hkeeps) input.faults
      simp only [Option.isSome_some, if_true, Inner.run]
      rw [Storage.bind_of_ok hmerge]

end World

/-! ## The serial run -/

section Serve

variable {ι : Type} (requests : ι → Request)

/-- Serves the requests one at a time, in the order and with the inputs of the list. -/
def serveAll : List (Served ι) → Inner → List (ι × Except ApiError Answer) × Inner
  | [], inner => ([], inner)
  | served :: rest, inner =>
    let (outcome, inner) := inner.serve served.input (requests served.request)
    let (outcomes, inner) := serveAll rest inner
    ((served.request, outcome) :: outcomes, inner)

theorem serveAll_concat (order : List (Served ι)) (served : Served ι) (inner : Inner) :
    serveAll requests (order ++ [served]) inner =
      let (outcomes, inner) := serveAll requests order inner
      let (outcome, inner) := inner.serve served.input (requests served.request)
      (outcomes ++ [(served.request, outcome)], inner) := by
  induction order generalizing inner with
  | nil => rfl
  | cons first order ih =>
    simp only [List.cons_append, serveAll, ih]

theorem map_fst_serveAll (order : List (Served ι)) (inner : Inner) :
    (serveAll requests order inner).1.map Prod.fst = order.map Served.request := by
  induction order generalizing inner with
  | nil => rfl
  | cons first order ih => exact congrArg _ (ih _)

end Serve

namespace Phase

/-- The request has run its deciding section. -/
def decided : Phase → Bool
  | .waiting | .drafted .. => false
  | _ => true

/-- The request decided this outcome; a response shows it with the enforcement state of
some moment. -/
def Answers (outcome : Except ApiError Answer) : Phase → Prop
  | .waiting | .drafted .. => False
  | .mutated answer | .compiled answer _ | .queued answer _ | .replied answer _ _
  | .applied answer _ => outcome = .ok answer
  | .done response _ => ∃ (inner : Inner) (input : Input), response = inner.respond input outcome

theorem decided_reply (result : Except String ApplySummary) (phase : Phase) :
    (World.reply result phase).decided = phase.decided := by
  cases phase <;> rfl

theorem Answers.reply {outcome : Except ApiError Answer} {phase : Phase}
    (h : phase.Answers outcome) (result : Except String ApplySummary) :
    (World.reply result phase).Answers outcome := by
  cases phase <;> exact h

theorem answers_settled (outcome : Except ApiError Answer) :
    (Phase.settled outcome).Answers outcome := by
  cases outcome with
  | error e => exact ⟨{}, { evidence := ⟨fun _ => [], fun _ => none⟩ }, rfl⟩
  | ok answer => rfl

theorem decided_settled (outcome : Except ApiError Answer) : (Phase.settled outcome).decided := by
  cases outcome <;> rfl

end Phase

namespace World

variable {ι : Type} [DecidableEq ι] {requests : ι → Request} {w w' : World ι} {event : Event ι}
  {inner₀ : Inner}

/-- The storage and the outcomes are those of the serial run in the order of the journal. -/
structure Serial (requests : ι → Request) (inner₀ : Inner) (w : World ι) : Prop where
  inner : w.inner = { (serveAll requests w.journal inner₀).2 with policy := w.inner.policy }
  nodup : (w.journal.map Served.request).Nodup
  decided : ∀ i, (w.phase i).decided ↔ i ∈ w.journal.map Served.request
  answers : ∀ entry ∈ (serveAll requests w.journal inner₀).1, (w.phase entry.1).Answers entry.2

namespace Serial

omit [DecidableEq ι] in
/-- Requests that have decided go on, and only the enforcement state changes. -/
theorem of_phase (hw : w.Serial requests inner₀) (hj : w'.journal = w.journal)
    (hi : w'.inner = { w.inner with policy := w'.inner.policy })
    (hd : ∀ i, (w'.phase i).decided = (w.phase i).decided)
    (ha : ∀ i outcome, (w.phase i).Answers outcome → (w'.phase i).Answers outcome) :
    w'.Serial requests inner₀ where
  inner := by
    rw [hi, hw.inner, hj]
  nodup := hj ▸ hw.nodup
  decided i := by rw [hd, hj, hw.decided]
  answers entry he := by
    rw [hj] at he
    exact ha _ _ (hw.answers entry he)

theorem setPhase {i : ι} {phase : Phase} (hw : w.Serial requests inner₀)
    (hd : phase.decided = (w.phase i).decided)
    (ha : ∀ outcome, (w.phase i).Answers outcome → phase.Answers outcome) :
    (w.setPhase i phase).Serial requests inner₀ := by
  refine hw.of_phase rfl rfl ?_ ?_
  · exact forall_setPhase (P := fun j phase => phase.decided = (w.phase j).decided)
      (fun _ => rfl) hd
  · exact forall_setPhase (P := fun j phase => ∀ outcome, (w.phase j).Answers outcome →
      phase.Answers outcome) (fun _ _ h => h) ha

/-- The request that decides is the next one of the serial run. -/
theorem decides {i : ι} {input entry : Input} {result : Except ApiError Answer × Inner}
    (hw : w.Serial requests inner₀) (hm : w.Merged requests)
    (hu : w.Unraced requests (.advance i input)) (h : Decides requests w i input entry result) :
    (w.settle i entry result.1 result.2).Serial requests inner₀ := by
  have hserve := h.serve hm hu
  rw [hw.inner, Inner.serve_policy] at hserve
  obtain ⟨houtcome, hinner⟩ := Prod.mk.inj (hserve.trans (Prod.mk.eta (p := result)).symm)
  have hconcat := serveAll_concat requests w.journal ⟨i, entry⟩ inner₀
  have hnew : i ∉ w.journal.map Served.request := by
    rw [← hw.decided]
    rcases h.undecided with hp | ⟨_, _, _, hp⟩ <;> simp [hp, Phase.decided]
  constructor
  · change result.2 = { (serveAll requests (w.journal ++ [⟨i, entry⟩]) inner₀).2 with
      policy := result.2.policy }
    rw [hconcat, ← hinner]
  · change ((w.journal ++ [Served.mk i entry]).map Served.request).Nodup
    rw [List.map_append, List.map_singleton, List.nodup_append]
    refine ⟨hw.nodup, List.nodup_singleton _, ?_⟩
    rintro j hj _ hi rfl
    rw [List.mem_singleton] at hi
    exact hnew ((show j = i from hi) ▸ hj)
  · intro j
    change ((World.setPhase _ i _).phase j).decided ↔
      j ∈ (w.journal ++ [Served.mk i entry]).map Served.request
    rw [List.map_append, List.map_singleton, List.mem_append, List.mem_singleton]
    by_cases hj : j = i
    · subst hj
      rw [setPhase_self]
      exact iff_of_true (Phase.decided_settled _) (Or.inr rfl)
    · rw [setPhase_of_ne _ hj]
      simpa [hj] using hw.decided j
  · intro answered ha
    change answered ∈ (serveAll requests (w.journal ++ [⟨i, entry⟩]) inner₀).1 at ha
    rw [hconcat] at ha
    rcases List.mem_append.mp ha with ha | ha
    · have hmem : answered.1 ∈ w.journal.map Served.request := by
        rw [← map_fst_serveAll requests w.journal inner₀]
        exact List.mem_map_of_mem ha
      have hne : answered.1 ≠ i := fun he => hnew (he ▸ hmem)
      change (World.phase (World.setPhase _ i _) answered.1).Answers _
      rw [setPhase_of_ne _ hne]
      exact hw.answers answered ha
    · rw [List.mem_singleton.mp ha]
      change (World.phase (World.setPhase _ i _) i).Answers _
      rw [setPhase_self, houtcome]
      exact Phase.answers_settled _

theorem step (hw : w.Serial requests inner₀) (hm : w.Merged requests)
    (hu : w.Unraced requests event) (h : Moves requests w event w') :
    w'.Serial requests inner₀ := by
  cases h with
  | @drafted i input id r existing draft inner hp hr hread =>
    obtain rfl := (congrArg Prod.snd hread).symm.trans (Inner.readDraft_snd _ _ _ _)
    refine setPhase hw ?_ ?_
    · rw [hp]
      rfl
    · simp [hp, Phase.Answers]
  | @decided i input entry result h => exact hw.decides hm hu h
  | @uncompiled i input answer e inner hp hc =>
    obtain ⟨lastError, rfl⟩ := Inner.compilePolicy_error hc
    refine setPhase (hw.of_phase rfl rfl (fun _ => rfl) fun _ _ h => h) ?_ ?_
    · simp [hp, Phase.decided]
    · simp [hp, Phase.Answers]
  | compiled hp hc =>
    obtain ⟨rfl, -⟩ := Inner.compilePolicy_ok hc
    refine setPhase (hw.of_phase rfl rfl (fun _ => rfl) fun _ _ h => h) ?_ ?_
    · simp [hp, Phase.decided]
    · simp [hp, Phase.Answers]
  | refused hp hn =>
    refine setPhase hw ?_ ?_
    · simp [hp, Phase.decided]
    · simp [hp, Phase.Answers]
  | sent hp hn =>
    refine setPhase (hw.of_phase rfl rfl (fun _ => rfl) fun _ _ h => h) ?_ ?_
    · simp [hp, Phase.decided]
    · simp [hp, Phase.Answers]
  | @recorded i input answer program result hp =>
    refine setPhase (hw.of_phase rfl (by cases result <;> rfl) (fun _ => rfl) fun _ _ h => h) ?_ ?_
    · simp [hp, Phase.decided]
    · simp [hp, Phase.Answers]
  | responded hp =>
    refine setPhase hw ?_ ?_
    · simp [hp, Phase.decided]
    · rintro outcome ho
      rw [hp] at ho
      obtain rfl := ho
      exact ⟨_, _, rfl⟩
  | @worked fault i program channel result core hn hc ha =>
    exact setPhase (hw.of_phase rfl rfl (fun _ => rfl) fun _ _ h => h)
      (Phase.decided_reply _ _) fun _ h => h.reply _
  | stopped =>
    exact hw.of_phase rfl rfl (fun _ => Phase.decided_reply _ _) fun _ _ h => h.reply _
  | kernel => exact hw.of_phase rfl rfl (fun _ => rfl) fun _ _ h => h

end Serial

end World

open World

/-- Runs of concurrent requests in which no update writes over a field it left out that has
changed since it read the rule: the storage, and what every request answers, are those of
the requests served one at a time in the order in which they decided. -/
theorem requests_serialisable {ι : Type} [DecidableEq ι] {requests : ι → Request}
    {w₀ w : World ι} (hp : ∀ i, w₀.phase i = .waiting) (hj : w₀.journal = [])
    (hr : (runs requests (Unraced requests) w₀).Reachable w) :
    (w.journal.map Served.request).Nodup ∧
      (∀ i, (w.phase i).decided ↔ i ∈ w.journal.map Served.request) ∧
      w.inner.db = (serveAll requests w.journal w₀.inner).2.db ∧
      ∀ answered ∈ (serveAll requests w.journal w₀.inner).1,
        (w.phase answered.1).Answers answered.2 := by
  have hw : w.Merged requests ∧ w.Serial requests w₀.inner := by
    refine hr.invariant (P := fun w => w.Merged requests ∧ w.Serial requests w₀.inner) ?_ ?_
    · rintro _ rfl
      refine ⟨fun i => by rw [hp]; trivial, ?_⟩
      constructor
      · rw [hj]
        rfl
      · simp [hj]
      · simp [hp, hj, Phase.decided]
      · simp [hj, serveAll]
    · rintro w w' ⟨hm, hs⟩ ⟨event, hu, hstep⟩
      exact ⟨hm.step (step_moves hstep), hs.step hm hu (step_moves hstep)⟩
  refine ⟨hw.2.nodup, hw.2.decided, ?_, hw.2.answers⟩
  rw [hw.2.inner]

/-! ## A lost update -/

namespace RuleDb

variable {db : RuleDb} {faults : List (Option String)}

theorem wp_mergeDraft (id : UInt32) (r : UpdateTrafficRuleRequest) :
    Storage.wp (mergeDraft id r) (fun merged c => c.store = db ∧ ∃ row before,
        db.trafficRules.find id.toNat = some row ∧ row.intoRecord = .ok before ∧
        draftFromUpdate before.rule r = .ok merged.2) (fun _ _ => True) ⟨db, faults⟩ := by
  unfold mergeDraft trafficRule
  rw [Storage.wp_bind, Storage.wp_bind, Storage.wp_query]
  refine ⟨fun _ => ?_, fun _ _ => trivial⟩
  cases hrow : db.trafficRules.find id.toNat with
  | none => exact trivial
  | some row =>
    rw [Storage.wp_ofExcept]
    refine ⟨fun before hbefore => ?_, fun _ _ => trivial⟩
    rw [Storage.wp_bind, Storage.wp_ofExcept]
    exact ⟨fun draft hdraft => ⟨rfl, row, before, rfl, hbefore, hdraft⟩, fun _ _ => trivial⟩

theorem wp_updateTrafficRule (id : ℕ) (draft : TrafficRuleDraft) (now : ℤ) :
    Storage.wp (updateTrafficRule id draft now)
      (fun _ c => c.store.trafficRules = db.trafficRules.update id draft now)
      (fun _ _ => True) ⟨db, faults⟩ := by
  unfold updateTrafficRule
  rw [Storage.wp_bind, Storage.wp_statement]
  refine ⟨fun _ => ?_, fun _ _ => trivial⟩
  cases hrow : (db.trafficRules.find id).isSome with
  | false => exact trivial
  | true =>
    simp only [Bool.not_true, Bool.false_eq_true, if_false]
    rw [Storage.wp_bind, wp_nextRevision]
    exact trafficRule_readOnly.wp (fun _ _ h => by rw [h]) fun _ _ _ => trivial

end RuleDb

/-- What a successful update in one go found and stored. -/
theorem Inner.serve_update_ok {inner inner' : Inner} {input : Input} {id : UInt32}
    {r : UpdateTrafficRuleRequest} {answer : Answer}
    (h : inner.serve input (.update id r) = (.ok answer, inner')) :
    ∃ row before draft, inner.db.trafficRules.find id.toNat = some row ∧
      row.intoRecord = .ok before ∧ draftFromUpdate before.rule r = .ok draft ∧
      inner'.db.trafficRules = inner.db.trafficRules.update id.toNat draft input.now := by
  have hwp : Storage.wp (RuleDb.mergeDraft id r >>= fun merged =>
      RuleDb.updateTrafficRule id.toNat merged.2 input.now)
      (fun _ c => ∃ row before draft, inner.db.trafficRules.find id.toNat = some row ∧
        row.intoRecord = .ok before ∧ draftFromUpdate before.rule r = .ok draft ∧
        c.store.trafficRules = inner.db.trafficRules.update id.toNat draft input.now)
      (fun _ _ => True) ⟨inner.db, input.faults⟩ := by
    rw [Storage.wp_bind]
    refine Storage.wp_mono (RuleDb.wp_mergeDraft id r) ?_ fun _ _ _ => trivial
    rintro ⟨_, draft⟩ ⟨store, faults⟩ ⟨rfl, row, before, hrow, hbefore, hdraft⟩
    exact Storage.wp_mono (RuleDb.wp_updateTrafficRule _ _ _)
      (fun _ _ hstore => ⟨row, before, draft, hrow, hbefore, hdraft, hstore⟩) fun _ _ h => h
  simp only [serve, run, Prod.mk.injEq] at h
  obtain ⟨hok, rfl⟩ := h
  obtain ⟨record, hrecord, _⟩ := Except.map_eq_ok.mp hok
  exact Storage.wp_of_fst_eq_ok hwp hrecord

namespace LostUpdate

/-- A limit of 8192 bytes per second on one address, stored as rule 1. -/
def row : RawTrafficRule where
  id := 1
  action := "limit"
  direction := "outbound"
  selectorJson := .endpoint (.v4 (.new 203 0 113 1)) none
  rateBytesPerS := some 8192
  burstBytes := some 8192
  enabled := 1
  createdAtMs := 0
  updatedAtMs := 0

def inner : Inner := { db.trafficRules := ⟨[row], List.pairwise_singleton _ _⟩ }

/-- One request disables the rule, the other one raises its rate. -/
def requests : Fin 2 → Request
  | 0 => .update 1 { enabled := some false }
  | 1 => .update 1 { rateBytesPerS := some 16384 }

def advance (i : Fin 2) : Event (Fin 2) := .advance i { evidence := .none }

/-- Both read the rule before either writes it. -/
def events : List (Event (Fin 2)) :=
  [advance 0, advance 1, advance 0, advance 1, advance 0, advance 0, advance 1, advance 1]

theorem events_happen : ((World.start inner).follow requests events).isSome := by decide +kernel

/-- The world the events lead to. -/
def final : World (Fin 2) := ((World.start inner).follow requests events).get events_happen

/-- A successful update of the only rule sets whether it is enabled, or keeps it. -/
theorem enabled_of_serve {inner inner' : Inner} {input : Input} {r : UpdateTrafficRuleRequest}
    {answer : Answer} {row : RawTrafficRule} (hrows : inner.db.trafficRules.rows = [row])
    (h : inner.serve input (.update 1 r) = (.ok answer, inner')) :
    ∃ row', inner'.db.trafficRules.rows = [row'] ∧
      row'.enabled = if r.enabled.getD (row.enabled ≠ 0) then 1 else 0 := by
  obtain ⟨found, before, draft, hfind, hbefore, hdraft, htable⟩ := Inner.serve_update_ok h
  simp only [RuleTable.find, hrows] at hfind
  have hid : row.id = 1 := by
    by_contra hne
    simp [hne] at hfind
  obtain rfl : row = found := by simpa [hid] using hfind
  obtain ⟨_, _, _, henabled, _⟩ := draftFromUpdate_ok_iff.mp hdraft
  have hkept : before.rule.enabled = decide (row.enabled ≠ 0) := by
    unfold RawTrafficRule.intoRecord at hbefore
    split at hbefore
    · simp at hbefore
    · split at hbefore
      · simp at hbefore
      · rw [← Except.ok.inj hbefore]
  refine ⟨draft.writeTo input.now row, ?_, ?_⟩
  · rw [htable]
    simp [RuleTable.update, hrows, hid]
  · rw [← hkept, henabled]
    rfl

/-- The request was answered with an updated rule. -/
def updated : Phase → Bool
  | .done (.updated _) _ => true
  | _ => false

theorem outcome_of_updated {phase : Phase} {outcome : Except ApiError Answer} (hu : updated phase)
    (h : phase.Answers outcome) : ∃ answer, outcome = .ok answer := by
  cases phase with
  | done response applied =>
    obtain ⟨inner, input, rfl⟩ := h
    cases outcome with
    | ok answer => exact ⟨answer, rfl⟩
    | error e => simp [updated, Inner.respond] at hu
  | _ => simp [updated] at hu

/-- In a serial run with two successful updates the disabling one takes effect. -/
theorem enabled_of_serveAll {order : List (Served (Fin 2))}
    (hperm : (order.map Served.request).Perm [0, 1])
    (hok : ∀ answered ∈ (serveAll requests order inner).1, ∃ answer, answered.2 = .ok answer) :
    ∃ row, (serveAll requests order inner).2.db.trafficRules.rows = [row] ∧ row.enabled = 0 := by
  obtain ⟨a, b, rfl⟩ : ∃ a b, order = [a, b] :=
    List.length_eq_two.mp (by simpa using hperm.length_eq)
  have horder : (a.request = 0 ∧ b.request = 1) ∨ (a.request = 1 ∧ b.request = 0) := by
    have hall : ∀ x y : Fin 2, [x, y].Perm [0, 1] → (x = 0 ∧ y = 1) ∨ (x = 1 ∧ y = 0) := by
      decide
    exact hall _ _ hperm
  cases ha : inner.serve a.input (requests a.request) with
  | mk first inner₁ =>
    cases hb : inner₁.serve b.input (requests b.request) with
    | mk second inner₂ =>
      have hserve : serveAll requests [a, b] inner =
          ([(a.request, first), (b.request, second)], inner₂) := by
        simp only [serveAll, ha, hb]
      rw [hserve] at hok ⊢
      obtain ⟨_, rfl⟩ := hok (a.request, first) List.mem_cons_self
      obtain ⟨_, rfl⟩ := hok (b.request, second) (List.mem_cons_of_mem _ List.mem_cons_self)
      rcases horder with ⟨h₀, h₁⟩ | ⟨h₀, h₁⟩ <;> rw [h₀] at ha <;> rw [h₁] at hb
      · obtain ⟨row₁, hrows₁, he₁⟩ := enabled_of_serve rfl ha
        obtain ⟨row₂, hrows₂, he₂⟩ := enabled_of_serve hrows₁ hb
        exact ⟨row₂, hrows₂, by simpa [he₁] using he₂⟩
      · obtain ⟨row₁, hrows₁, he₁⟩ := enabled_of_serve rfl ha
        obtain ⟨row₂, hrows₂, he₂⟩ := enabled_of_serve hrows₁ hb
        exact ⟨row₂, hrows₂, by simpa using he₂⟩

end LostUpdate

/-- Both updates are answered as successful, yet the rule is enabled afterwards: no serial
order of the two, whatever clock and storage it meets, leaves it so. -/
theorem concurrent_edit_undoes_disable :
    ∃ w : World (Fin 2), (runs LostUpdate.requests (fun _ _ => True)
        (World.start LostUpdate.inner)).Reachable w ∧
      (∀ i, LostUpdate.updated (w.phase i)) ∧
      ¬ ∃ order : List (Served (Fin 2)), (order.map Served.request).Perm [0, 1] ∧
        w.inner.db.trafficRules =
          (serveAll LostUpdate.requests order LostUpdate.inner).2.db.trafficRules ∧
        ∀ answered ∈ (serveAll LostUpdate.requests order LostUpdate.inner).1,
          (w.phase answered.1).Answers answered.2 := by
  have hupdated : ∀ i, LostUpdate.updated (LostUpdate.final.phase i) := by decide +kernel
  refine ⟨LostUpdate.final, reachable_follow (.init rfl) (Option.some_get _).symm, hupdated, ?_⟩
  rintro ⟨order, hperm, htable, hanswers⟩
  obtain ⟨row, hrows, hdisabled⟩ := LostUpdate.enabled_of_serveAll hperm fun answered ha =>
    LostUpdate.outcome_of_updated (hupdated _) (hanswers answered ha)
  have henabled : LostUpdate.final.inner.db.trafficRules.rows.map RawTrafficRule.enabled = [1] := by
    decide +kernel
  rw [htable, hrows, List.map_singleton, hdisabled] at henabled
  simp at henabled

open LostUpdate in
/-- One update alone: at its write the rule is as it was read. -/
theorem requests_serialisable_update : ∃ w : World (Fin 2), (w.phase 0).decided ∧
    w.inner.db = (serveAll requests w.journal LostUpdate.inner).2.db := by
  have hr := System.Reachable.init (S := runs requests (Unraced requests)
    (World.start LostUpdate.inner)) rfl
  have hr := hr.step ⟨advance 0, trivial, rfl⟩
  have hwrite : Unraced requests (World.begin (World.start LostUpdate.inner) 0
      { evidence := .none } (requests 0)) (advance 0) := by
    change ∀ found, some row = some found → ∃ record, found.intoRecord = .ok record ∧
      KeepsLeftOut { enabled := some false } _ record.rule
    rintro _ ⟨rfl⟩
    exact ⟨_, rfl, fun _ => rfl, fun _ => rfl, fun _ => rfl, fun _ => rfl, fun _ _ => rfl⟩
  have hr := hr.step ⟨advance 0, hwrite, rfl⟩
  exact ⟨_, rfl, (requests_serialisable (fun _ => rfl) rfl hr).2.2.1⟩

end ZimaScope
