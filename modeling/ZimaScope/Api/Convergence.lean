import ZimaScope.Api.Sections
import ZimaScope.Policy.Meaning

/-! # Convergence of the applied program

Runs of concurrent requests in which programs reach the worker, and their
results the status, in the order they were compiled. Once every request has
completed and every apply succeeded, the worker holds the compilation of what
is persisted, and the reported revision never moves back. Without that order
neither holds.
-/

namespace ZimaScope

/-- What the persisted rules and master switch compile to. -/
def RuleDb.compilation (db : RuleDb) (evidence : Evidence) : Except String CompiledProgram :=
  match db.trafficRules.rows.mapM RawTrafficRule.intoRecord with
  | .error e => .error e.display
  | .ok records =>
    compile systemResolver evidence (records.map TrafficRuleRecord.rule) db.rulesRevision
      db.loadSettings.1.trafficRules.enabled

theorem RuleDb.enabled_of_compilation {db : RuleDb} {evidence : Evidence}
    {program : CompiledProgram} (h : db.compilation evidence = .ok program) :
    program.policy.enabled = db.loadSettings.1.trafficRules.enabled := by
  unfold compilation at h
  split at h
  · simp at h
  · rw [(compile_ok h).1]

/-- The program a request carries to the worker and back. -/
def Phase.program : Phase → Option Stamped
  | .compiled _ program | .queued _ program | .replied _ program _ => some program
  | _ => none

/-- The policy of this request could not be applied. -/
def Phase.Failed : Phase → Prop
  | .replied _ _ (.error _) | .applied _ (.error _) | .done _ (some (.error _)) => True
  | _ => False

/-- The request is done, and its policy applied if it came that far. -/
def Phase.completed : Phase → Bool
  | .done _ (some (.error _)) => false
  | .done .. => true
  | _ => false

namespace World

variable {ι : Type} [DecidableEq ι] {requests : ι → Request} {E : Set Evidence} {w w' : World ι}
  {i : ι} {input : Input}

/-- Programs are sent, and results recorded, in the order of compilation; no statement
fails after the write of its section. -/
def InOrder (E : Set Evidence) (requests : ι → Request) (w : World ι) : Event ι → Prop
  | .advance i input => input.evidence ∈ E ∧
    w.lateFault requests i input = none ∧
    match w.phase i with
    | .compiled _ program => w.sent < program.stamp
    | .replied _ program (.ok _) => w.recorded < program.stamp
    | _ => True
  | _ => True

/-- Every request has completed and every apply succeeded. -/
def AllApplied (w : World ι) : Prop := ∀ i, (w.phase i).completed

variable {event : Event ι}

/-! ## The order of programs -/

/-- Programs stand in the channel, and were installed, in the order of compilation. -/
structure Ordered (w : World ι) : Prop where
  unsent : ∀ i answer program, w.phase i = .compiled answer program → program.stamp ≤ w.clock
  sent_le : w.sent ≤ w.clock
  sorted : w.channel.Pairwise fun a b => a.2.stamp < b.2.stamp
  channel_le : ∀ entry ∈ w.channel, entry.2.stamp ≤ w.sent
  installed_lt : ∀ entry ∈ w.channel, w.installed < entry.2.stamp
  installed_le : w.installed ≤ w.sent
  queued : ∀ entry ∈ w.channel, ∃ answer, w.phase entry.1 = .queued answer entry.2

namespace Ordered

/-- What is in the channel stays queued when a request moves on that is not it. -/
theorem queued_setPhase {phase : Phase} (hw : w.Ordered) {entry : ι × Stamped}
    (he : entry ∈ w.channel) (hne : ∀ answer, w.phase i ≠ .queued answer entry.2) :
    ∃ answer, (w.setPhase i phase).phase entry.1 = .queued answer entry.2 := by
  obtain ⟨answer, ha⟩ := hw.queued entry he
  refine ⟨answer, ?_⟩
  rwa [setPhase_of_ne]
  rintro rfl
  exact hne answer ha

/-- A request moves on that is not in the channel, to a phase without an unsent program. -/
theorem setPhase {phase : Phase} (hw : w.Ordered)
    (hq : ∀ answer program, w.phase i ≠ .queued answer program)
    (hc : ∀ answer program, phase ≠ .compiled answer program) : (w.setPhase i phase).Ordered where
  unsent := forall_setPhase
    (P := fun _ phase => ∀ answer program, phase = .compiled answer program → program.stamp ≤ w.clock)
    hw.unsent fun answer program h => absurd h (hc answer program)
  sent_le := hw.sent_le
  sorted := hw.sorted
  channel_le := hw.channel_le
  installed_lt := hw.installed_lt
  installed_le := hw.installed_le
  queued _ he := hw.queued_setPhase he fun answer => hq answer _

omit [DecidableEq ι] in
/-- Fields the order does not speak of may change. -/
theorem congr (hw : w.Ordered) (hp : w'.phase = w.phase) (hch : w'.channel = w.channel)
    (hcl : w'.clock = w.clock) (hs : w'.sent = w.sent) (hi : w'.installed = w.installed) :
    w'.Ordered where
  unsent := by rw [hp, hcl]; exact hw.unsent
  sent_le := by rw [hs, hcl]; exact hw.sent_le
  sorted := by rw [hch]; exact hw.sorted
  channel_le := by rw [hch, hs]; exact hw.channel_le
  installed_lt := by rw [hch, hi]; exact hw.installed_lt
  installed_le := by rw [hs, hi]; exact hw.installed_le
  queued := by rw [hch, hp]; exact hw.queued

/-- A program is sent that was compiled after those that are. -/
theorem send {answer : Answer} {program : Stamped} (hw : w.Ordered)
    (hp : w.phase i = .compiled answer program) (hlt : w.sent < program.stamp) :
    ({ w with channel := w.channel ++ [(i, program)], sent := program.stamp }.setPhase i
      (.queued answer program)).Ordered where
  unsent := forall_setPhase (P := fun _ phase => ∀ answer program,
    phase = .compiled answer program → program.stamp ≤ w.clock) hw.unsent (by simp)
  sent_le := hw.unsent i answer program hp
  sorted := List.pairwise_append.mpr ⟨hw.sorted, List.pairwise_singleton _ _,
    fun entry he last hl => by
      rw [List.mem_singleton.mp hl]
      exact (hw.channel_le entry he).trans_lt hlt⟩
  channel_le entry he := by
    rcases List.mem_append.mp he with he | he
    · exact ((hw.channel_le entry he).trans_lt hlt).le
    · rw [List.mem_singleton.mp he]
      exact le_rfl
  installed_lt entry he := by
    rcases List.mem_append.mp he with he | he
    · exact hw.installed_lt entry he
    · rw [List.mem_singleton.mp he]
      exact hw.installed_le.trans_lt hlt
  installed_le := (hw.installed_le.trans_lt hlt).le
  queued entry he := by
    rcases List.mem_append.mp he with he | he
    · exact hw.queued_setPhase he (by simp [hp])
    · rw [List.mem_singleton.mp he]
      exact ⟨answer, setPhase_self _ _ _⟩

/-- The worker takes the program that was sent first, and installs it or not. -/
theorem work {program : Stamped} {channel : List (ι × Stamped)} {core : CollectorCore}
    {result : Except String ApplySummary} (hw : w.Ordered)
    (hc : w.channel = (i, program) :: channel) :
    ({ w with
      core, channel
      installed := if result.isOk then program.stamp else w.installed }.setPhase i
        (reply result (w.phase i))).Ordered := by
  obtain ⟨hlt, hsorted⟩ := List.pairwise_cons.mp (hc ▸ hw.sorted)
  have hmem : ∀ entry ∈ channel, entry ∈ w.channel := fun entry he =>
    hc ▸ List.mem_cons_of_mem _ he
  have hhead : (i, program) ∈ w.channel := hc ▸ List.mem_cons_self
  obtain ⟨answer, hp⟩ := hw.queued _ hhead
  simp only at hp
  exact {
    unsent := forall_setPhase (P := fun _ phase => ∀ answer program,
        phase = .compiled answer program → program.stamp ≤ w.clock) hw.unsent (by simp [hp, reply])
    sent_le := hw.sent_le
    sorted := hsorted
    channel_le := fun entry he => hw.channel_le entry (hmem entry he)
    installed_lt := fun entry he => by
      change (if result.isOk then program.stamp else w.installed) < entry.2.stamp
      split
      · exact hlt entry he
      · exact hw.installed_lt entry (hmem entry he)
    installed_le := by
      change (if result.isOk then program.stamp else w.installed) ≤ w.sent
      split
      · exact hw.channel_le _ hhead
      · exact hw.installed_le
    queued := fun entry he => by
      refine hw.queued_setPhase (hmem entry he) fun a ha => ?_
      obtain ⟨-, hprogram⟩ := Phase.queued.inj (hp.symm.trans ha)
      have := hlt entry he
      simp [hprogram] at this }

omit [DecidableEq ι] in
/-- Nothing is left in the channel of a worker that stopped. -/
theorem stop (hw : w.Ordered) : w.stop.Ordered where
  unsent i answer program h := by
    change reply _ (w.phase i) = _ at h
    cases hp : w.phase i <;> simp [hp, reply] at h
    exact hw.unsent i _ _ (by rw [hp, h.1, h.2])
  sent_le := hw.sent_le
  sorted := List.Pairwise.nil
  channel_le := by simp [World.stop]
  installed_lt := by simp [World.stop]
  installed_le := hw.installed_le
  queued := by simp [World.stop]

theorem step (hw : w.Ordered) (ho : w.InOrder E requests event)
    (h : Moves requests w event w') : w'.Ordered := by
  cases h with
  | drafted hp hr hread =>
    exact setPhase (hw.congr rfl rfl rfl rfl rfl) (by simp [hp]) (by simp)
  | @decided i input entry result h =>
    refine setPhase (hw.congr rfl rfl rfl rfl rfl) ?_ ?_
    · rcases h.undecided with hp | ⟨_, _, _, hp⟩ <;> simp [hp]
    · cases result.1 <;> simp [Phase.settled]
  | uncompiled hp hc => exact setPhase (hw.congr rfl rfl rfl rfl rfl) (by simp [hp]) (by simp)
  | @compiled i input answer compiled inner hp hc =>
    have hclock := Nat.le_succ w.clock
    exact {
      unsent := forall_setPhase (P := fun _ phase => ∀ answer program,
          phase = .compiled answer program → program.stamp ≤ w.clock + 1)
        (fun j answer program hj => (hw.unsent j answer program hj).trans hclock)
        fun _ _ he => by cases he; exact le_rfl
      sent_le := hw.sent_le.trans hclock
      sorted := hw.sorted
      channel_le := hw.channel_le
      installed_lt := hw.installed_lt
      installed_le := hw.installed_le
      queued := fun _ he => hw.queued_setPhase he (by simp [hp]) }
  | refused hp hn => exact hw.setPhase (by simp [hp]) (by simp)
  | @sent i input answer program hp hn =>
    obtain ⟨_, _, hlt⟩ := ho
    simp only [hp] at hlt
    exact hw.send hp hlt
  | recorded hp => exact setPhase (hw.congr rfl rfl rfl rfl rfl) (by simp [hp]) (by simp)
  | responded hp => exact hw.setPhase (by simp [hp]) (by simp)
  | worked hn hc ha => exact hw.work hc
  | stopped => exact hw.stop
  | kernel => exact hw.congr rfl rfl rfl rfl rfl

end Ordered

/-! ## The reported revision -/

/-- A request carries the program to the worker or its result back. -/
def Carries (w : World ι) (program : Stamped) : Prop := ∃ i, (w.phase i).program = some program

omit [DecidableEq ι] in
@[simp] theorem program_reply (result : Except String ApplySummary) (phase : Phase) :
    (reply result phase).program = phase.program := by
  cases phase <;> rfl

theorem carries_setPhase {phase : Phase} {program : Stamped}
    (h : (w.setPhase i phase).Carries program) : phase.program = some program ∨ w.Carries program := by
  obtain ⟨j, hj⟩ := h
  by_cases hi : j = i
  · subst hi
    rw [setPhase_self] at hj
    exact Or.inl hj
  · rw [setPhase_of_ne w hi] at hj
    exact Or.inr ⟨j, hj⟩

/-- Revisions follow stamps: what is still on its way has at least the reported revision. -/
structure Reported (w : World ι) : Prop where
  applied_le : w.inner.policy.appliedRevision ≤ w.inner.db.rulesRevision
  recorded_le : w.recorded ≤ w.clock
  carried_le : ∀ p, w.Carries p →
    p.stamp ≤ w.clock ∧ p.policy.revision ≤ w.inner.db.rulesRevision
  mono : ∀ p q, w.Carries p → w.Carries q → p.stamp < q.stamp →
    p.policy.revision ≤ q.policy.revision
  pending : ∀ p, w.Carries p → w.recorded < p.stamp →
    w.inner.policy.appliedRevision ≤ p.policy.revision
  result : ∀ i answer p s, w.phase i = .replied answer p (.ok s) → s.revision = p.policy.revision

namespace Reported

omit [DecidableEq ι] in
/-- The storage goes on, and no new program is on its way. -/
theorem of_carries (hw : w.Reported)
    (hpolicy : w'.inner.policy.appliedRevision = w.inner.policy.appliedRevision)
    (hdb : w.inner.db.rulesRevision ≤ w'.inner.db.rulesRevision) (hr : w'.recorded = w.recorded)
    (hclock : w'.clock = w.clock) (hc : ∀ p, w'.Carries p → w.Carries p)
    (hresult : ∀ i answer p s, w'.phase i = .replied answer p (.ok s) →
      s.revision = p.policy.revision) : w'.Reported where
  applied_le := by rw [hpolicy]; exact hw.applied_le.trans hdb
  recorded_le := by rw [hr, hclock]; exact hw.recorded_le
  carried_le p hp := by
    rw [hclock]
    exact ⟨(hw.carried_le p (hc p hp)).1, (hw.carried_le p (hc p hp)).2.trans hdb⟩
  mono p q hp hq := hw.mono p q (hc p hp) (hc q hq)
  pending p hp hlt := by
    rw [hpolicy]
    exact hw.pending p (hc p hp) (hr ▸ hlt)
  result := hresult

/-- One request moves on, with the program it carries or without. -/
theorem setPhase {phase : Phase} (hw : w.Reported)
    (hp : ∀ p, phase.program = some p → w.Carries p)
    (hs : ∀ answer p s, phase = .replied answer p (.ok s) → s.revision = p.policy.revision) :
    (w.setPhase i phase).Reported :=
  hw.of_carries rfl le_rfl rfl rfl (fun _ h => (carries_setPhase h).elim (hp _) id)
    (forall_setPhase (P := fun _ phase => ∀ answer p s, phase = .replied answer p (.ok s) →
      s.revision = p.policy.revision) hw.result hs)

/-- The new program has the largest stamp and the current revision. -/
theorem compile {answer : Answer} {program : Stamped} (hw : w.Reported)
    (hstamp : program.stamp = w.clock + 1)
    (hrevision : program.policy.revision = w.inner.db.rulesRevision) :
    ({ w with clock := w.clock + 1 }.setPhase i (.compiled answer program)).Reported := by
  have hnew : ∀ p : Stamped,
      ({ w with clock := w.clock + 1 }.setPhase i (.compiled answer program)).Carries p →
      (p.stamp = w.clock + 1 ∧ p.policy.revision = w.inner.db.rulesRevision) ∨ w.Carries p := by
    intro p hc
    rcases carries_setPhase hc with hp | hp
    · obtain rfl := Option.some.inj hp
      exact Or.inl ⟨hstamp, hrevision⟩
    · exact Or.inr hp
  exact {
    applied_le := hw.applied_le
    recorded_le := hw.recorded_le.trans (Nat.le_succ _)
    carried_le := fun p hp => by
      rcases hnew p hp with ⟨hs, hr⟩ | hp
      · exact ⟨hs.le, hr.le⟩
      · exact ⟨(hw.carried_le p hp).1.trans (Nat.le_succ _), (hw.carried_le p hp).2⟩
    mono := fun p q hp hq hlt => by
      rcases hnew q hq with ⟨hs, hr⟩ | hq
      · rcases hnew p hp with ⟨_, hr'⟩ | hp
        · rw [hr, hr']
        · rw [hr]
          exact (hw.carried_le p hp).2
      · rcases hnew p hp with ⟨hs, _⟩ | hp
        · have := (hw.carried_le q hq).1
          omega
        · exact hw.mono p q hp hq hlt
    pending := fun p hp hlt => by
      rcases hnew p hp with ⟨_, hr⟩ | hp
      · rw [hr]
        exact hw.applied_le
      · exact hw.pending p hp hlt
    result := forall_setPhase (P := fun _ phase => ∀ answer p s, phase = .replied answer p (.ok s) →
      s.revision = p.policy.revision) hw.result (by simp) }

/-- The revision of a result is reported. -/
theorem record {answer : Answer} {program : Stamped} {summary : ApplySummary} (hw : w.Reported)
    (hp : w.phase i = .replied answer program (.ok summary)) :
    (w.record i answer program (.ok summary)).Reported := by
  have hcarried : w.Carries program := ⟨i, by rw [hp]; rfl⟩
  have hrevision := hw.result i answer program summary hp
  have hold : ∀ p, (w.record i answer program (.ok summary)).Carries p → w.Carries p :=
    fun p h => (carries_setPhase h).resolve_left (by simp [Phase.program])
  exact {
    applied_le := hrevision.le.trans (hw.carried_le program hcarried).2
    recorded_le := (hw.carried_le program hcarried).1
    carried_le := fun p hp => hw.carried_le p (hold p hp)
    mono := fun p q hp hq => hw.mono p q (hold p hp) (hold q hq)
    pending := fun p hp hlt => hrevision.le.trans (hw.mono program p hcarried (hold p hp) hlt)
    result := forall_setPhase (P := fun _ phase => ∀ answer p s,
      phase = .replied answer p (.ok s) → s.revision = p.policy.revision) hw.result (by simp) }

theorem step (hw : w.Reported) (hm : w.Merged requests) (hord : w.Ordered)
    (h : Moves requests w event w') : w'.Reported := by
  have hinner : ∀ (inner : Inner) (journal : List (Served ι)),
      inner.policy.appliedRevision = w.inner.policy.appliedRevision →
      w.inner.db.rulesRevision ≤ inner.db.rulesRevision →
      Reported { w with inner, journal } := fun _ _ hp hdb =>
    hw.of_carries hp hdb rfl rfl (fun _ h => h) hw.result
  cases h with
  | @drafted i input id r existing draft inner hp hr hread =>
    obtain rfl := (congrArg Prod.snd hread).symm.trans (Inner.readDraft_snd _ _ _ _)
    exact hw.setPhase (by simp [Phase.program]) (by simp)
  | @decided i input entry result h =>
    have hsection := h.section hm
    refine Reported.setPhase (hinner _ _ (congrArg _ hsection.policy) hsection.revision) ?_ ?_
    · cases result.1 <;> simp [Phase.settled, Phase.program]
    · cases result.1 <;> simp [Phase.settled]
  | uncompiled hp hc =>
    obtain ⟨lastError, rfl⟩ := Inner.compilePolicy_error hc
    refine Reported.setPhase (hinner _ w.journal rfl le_rfl) ?_ ?_
    · simp [Phase.program]
    · simp
  | @compiled i input answer compiled inner hp hc =>
    obtain ⟨rfl, -, records, program, -, hprogram, rfl⟩ := Inner.compilePolicy_ok hc
    have hrevision : program.policy.revision = w.inner.db.rulesRevision := by
      rw [(compile_ok hprogram).1]
    exact hw.compile rfl hrevision
  | refused hp hn =>
    exact hw.setPhase (fun p h => ⟨_, by rw [hp]; exact h⟩) (by simp)
  | sent hp hn =>
    refine Reported.setPhase (hw.of_carries rfl le_rfl rfl rfl (fun _ h => h) hw.result) ?_ ?_
    · exact fun p h => ⟨_, by rw [hp]; exact h⟩
    · simp
  | @recorded i input answer program result hp =>
    cases result with
    | error e =>
      refine Reported.setPhase (hw.of_carries rfl le_rfl rfl rfl (fun _ h => h) hw.result) ?_ ?_
      · simp [Phase.program]
      · simp
    | ok summary => exact hw.record hp
  | responded hp => exact hw.setPhase (by simp [Phase.program]) (by simp)
  | @worked fault i program channel result core hn hc ha =>
    obtain ⟨answer, hp⟩ := hord.queued (i, program) (hc ▸ List.mem_cons_self)
    simp only at hp
    refine Reported.setPhase (hw.of_carries rfl le_rfl rfl rfl (fun _ h => h) hw.result) ?_ ?_
    · exact fun p h => ⟨i, by simpa using h⟩
    · simp only [hp, reply, Phase.replied.injEq]
      rintro _ _ s ⟨_, rfl, rfl⟩
      have hanswer := congrArg Prod.fst ha
      rcases w.core.answer_cases fault program.policy with ⟨_, hok, _⟩ | ⟨_, herror, _⟩
      · rw [Except.ok.inj (hanswer.symm.trans hok)]
      · simp [herror] at hanswer
  | stopped =>
    refine hw.of_carries rfl le_rfl rfl rfl ?_ ?_
    · rintro p ⟨i, hi⟩
      exact ⟨i, by simpa [stop] using hi⟩
    · intro i answer p s h
      change reply _ (w.phase i) = _ at h
      cases hp : w.phase i <;> simp [hp, reply] at h
      exact hw.result i _ _ _ (by rw [hp, h.1, h.2.1, h.2.2])
  | kernel => exact hw.of_carries rfl le_rfl rfl rfl (fun _ h => h) hw.result

end Reported

/-! ## Convergence -/

/-- The request still has to compile what it stored. -/
def Owes (requests : ι → Request) (w : World ι) (i : ι) : Prop :=
  (∃ answer, w.phase i = .mutated answer) ∨ requests i = .startup ∧ w.phase i = .waiting

/-- The program compiled last is on its way to the worker, or installed. -/
inductive Held (w : World ι) (policy : CompiledPolicy) : Prop
  | unsent {i answer program} (h : w.phase i = .compiled answer program)
    (hs : program.stamp = w.clock) (hp : program.policy = policy)
  | sent {entry} (h : entry ∈ w.channel) (hs : entry.2.stamp = w.clock)
    (hp : entry.2.policy = policy)
  | installed (hs : w.installed = w.clock) (hp : w.core.appliedPolicy = policy)

/-- Somebody still owes a compilation, some apply failed, or the last program compiled is
what the storage compiles to. -/
def Converging (E : Set Evidence) (requests : ι → Request) (w : World ι) : Prop :=
  (∃ i, Owes requests w i) ∨ (∃ i, (w.phase i).Failed) ∨
    ∃ evidence ∈ E, ∃ program, w.inner.db.compilation evidence = .ok program ∧
      w.Held program.policy

namespace Converging

variable {phase : Phase}

omit [DecidableEq ι] in
theorem congr (hw : w.Converging E requests) (hdb : w'.inner.db = w.inner.db)
    (hp : w'.phase = w.phase) (hch : w'.channel = w.channel) (hcl : w'.clock = w.clock)
    (hi : w'.installed = w.installed) (hcore : w'.core.appliedPolicy = w.core.appliedPolicy) :
    w'.Converging E requests := by
  rcases hw with ⟨j, hj⟩ | ⟨j, hj⟩ | ⟨evidence, he, program, hprogram, hheld⟩
  · exact Or.inl ⟨j, by rwa [Owes, hp]⟩
  · exact Or.inr (Or.inl ⟨j, by rwa [hp]⟩)
  · refine Or.inr (Or.inr ⟨evidence, he, program, by rwa [hdb], ?_⟩)
    cases hheld with
    | unsent h hs hpolicy => exact .unsent (by rw [hp, h]) (by rw [hcl, hs]) hpolicy
    | sent h hs hpolicy => exact .sent (by rwa [hch]) (by rw [hcl, hs]) hpolicy
    | installed hs hpolicy => exact .installed (by rw [hi, hcl, hs]) (by rw [hcore, hpolicy])

/-- A request moves on that owes nothing and does not lose a failure; the program held stays so. -/
theorem of_held (hw : w.Converging E requests) (hp : w'.phase = (w.setPhase i phase).phase)
    (hdb : w'.inner.db = w.inner.db) (ho : ¬ Owes requests w i)
    (hf : (w.phase i).Failed → phase.Failed)
    (hheld : ∀ policy, w.Held policy → w'.Held policy) : w'.Converging E requests := by
  rcases hw with ⟨j, hj⟩ | ⟨j, hj⟩ | ⟨evidence, he, program, hprogram, hpolicy⟩
  · have hij : j ≠ i := by rintro rfl; exact ho hj
    exact Or.inl ⟨j, by simpa only [Owes, hp, setPhase_of_ne w hij] using hj⟩
  · refine Or.inr (Or.inl ⟨j, ?_⟩)
    rw [hp]
    by_cases hij : j = i
    · subst hij
      rw [setPhase_self]
      exact hf hj
    · rwa [setPhase_of_ne w hij]
  · exact Or.inr (Or.inr ⟨evidence, he, program, by rwa [hdb], hheld _ hpolicy⟩)

/-- A request that owes nothing, holds nothing unsent and does not lose a failure. -/
theorem setPhase (hw : w.Converging E requests) (ho : ¬ Owes requests w i)
    (hf : (w.phase i).Failed → phase.Failed)
    (hc : ∀ answer program, w.phase i ≠ .compiled answer program) :
    (w.setPhase i phase).Converging E requests := by
  refine hw.of_held rfl rfl ho hf fun policy hheld => ?_
  cases hheld with
  | @unsent j answer program h hs hpolicy =>
    have hij : j ≠ i := by rintro rfl; exact hc _ _ h
    exact .unsent (by rwa [setPhase_of_ne w hij]) hs hpolicy
  | sent h hs hpolicy => exact .sent h hs hpolicy
  | installed hs hpolicy => exact .installed hs hpolicy

/-- The worker fails, or installs the program it takes. -/
theorem work {fault : Option KernelFault} {program : Stamped} {channel : List (ι × Stamped)}
    {core : CollectorCore} {result : Except String ApplySummary} (hw : w.Converging E requests)
    (hord : w.Ordered) (hc : w.channel = (i, program) :: channel)
    (ha : w.core.answer fault program.policy = (result, core)) :
    ({ w with
      core, channel
      installed := if result.isOk then program.stamp else w.installed }.setPhase i
        (reply result (w.phase i))).Converging E requests := by
  obtain ⟨answer, hp⟩ := hord.queued (i, program) (hc ▸ List.mem_cons_self)
  simp only at hp
  have hanswer := w.core.answer_cases fault program.policy
  simp only [ha] at hanswer
  obtain ⟨operations, rfl, hcore⟩ | ⟨e, rfl, hcore⟩ := hanswer
  swap
  · exact Or.inr (Or.inl ⟨i, by rw [setPhase_self, hp]; trivial⟩)
  refine hw.of_held rfl rfl (by simp [Owes, hp]) (by simp [hp, Phase.Failed]) fun policy hheld => ?_
  cases hheld with
  | @unsent j answer' program' h hs hpolicy =>
    have hij : j ≠ i := by rintro rfl; simp [hp] at h
    exact .unsent (by rwa [setPhase_of_ne _ hij]) hs hpolicy
  | @sent entry h hs hpolicy =>
    rw [hc] at h
    rcases List.mem_cons.mp h with rfl | h
    · exact .installed hs (hcore.trans hpolicy)
    · exact .sent h hs hpolicy
  | installed hs hpolicy =>
    -- The installed program is the last one compiled: nothing can follow it.
    have hlt := hord.installed_lt (i, program) (hc ▸ List.mem_cons_self)
    have hle := (hord.channel_le (i, program) (hc ▸ List.mem_cons_self)).trans hord.sent_le
    omega

omit [DecidableEq ι] in
/-- What was in the channel of a worker that stopped has failed. -/
theorem stop (hw : w.Converging E requests) (hord : w.Ordered) :
    w.stop.Converging E requests := by
  have hfailed : ∀ phase : Phase, phase.Failed →
      (reply (.error "collector worker dropped the policy request") phase).Failed := by
    intro phase h
    cases phase with
    | queued => exact trivial
    | _ => exact h
  rcases hw with ⟨j, hj⟩ | ⟨j, hj⟩ | ⟨evidence, he, compiled, hprogram, hheld⟩
  · refine Or.inl ⟨j, ?_⟩
    rcases hj with ⟨answer, hj⟩ | ⟨hr, hj⟩
    · exact Or.inl ⟨answer, by simp [World.stop, hj, reply]⟩
    · exact Or.inr ⟨hr, by simp [World.stop, hj, reply]⟩
  · exact Or.inr (Or.inl ⟨j, hfailed _ hj⟩)
  · cases hheld with
    | @unsent j answer' program' h hs hpolicy =>
      exact Or.inr (Or.inr ⟨evidence, he, compiled, hprogram,
        .unsent (show w.stop.phase j = .compiled answer' program' by
          simp only [World.stop, h, reply]) hs hpolicy⟩)
    | @sent entry h hs hpolicy =>
      obtain ⟨answer, hp⟩ := hord.queued entry h
      refine Or.inr (Or.inl ⟨entry.1, ?_⟩)
      simp [World.stop, hp, reply, Phase.Failed]
    | installed hs hpolicy =>
      exact Or.inr (Or.inr ⟨evidence, he, compiled, hprogram, .installed hs hpolicy⟩)

theorem step (hw : w.Converging E requests) (hm : w.Merged requests) (hord : w.Ordered)
    (hsync : w.inner.Synced) (ho : w.InOrder E requests event) (h : Moves requests w event w') :
    w'.Converging E requests := by
  cases h with
  | @drafted i input id r existing draft inner hp hr hread =>
    obtain rfl := (congrArg Prod.snd hread).symm.trans (Inner.readDraft_snd _ _ _ _)
    exact hw.setPhase (by simp [Owes, hp, hr]) (by simp [hp, Phase.Failed]) (by simp [hp])
  | @decided i input entry result h =>
    have hsection := h.section hm
    rw [ho.2.1] at hsection
    obtain ⟨outcome, inner⟩ := result
    cases outcome with
    | ok answer => exact Or.inl ⟨i, Or.inl ⟨answer, setPhase_self _ _ _⟩⟩
    | error e =>
      have hdb := (hsection.refused rfl e rfl).1
      refine setPhase (hw.congr hdb rfl rfl rfl rfl rfl) ?_ ?_ ?_
      · rintro (⟨answer, hp⟩ | ⟨hr, hp⟩)
        · rcases h.undecided with hp' | ⟨_, _, _, hp'⟩ <;> simp [hp'] at hp
        · simpa using h.startup hr hp
      · rcases h.undecided with hp | ⟨_, _, _, hp⟩ <;> simp [hp, Phase.Failed]
      · rcases h.undecided with hp | ⟨_, _, _, hp⟩ <;> simp [hp]
  | @uncompiled i input answer e inner hp hc =>
    exact Or.inr (Or.inl ⟨i, by rw [setPhase_self]; trivial⟩)
  | @compiled i input answer compiled inner hp hc =>
    obtain ⟨rfl, -, records, program, hrecords, hprogram, rfl⟩ := Inner.compilePolicy_ok hc
    refine Or.inr (Or.inr ⟨input.evidence, ho.1, program, ?_, .unsent (setPhase_self _ _ _) rfl rfl⟩)
    rw [hsync] at hprogram
    change RuleDb.compilation w.inner.db _ = _
    simp only [RuleDb.compilation, hrecords, hprogram]
  | @refused i input answer program hp hn =>
    exact Or.inr (Or.inl ⟨i, by rw [setPhase_self]; trivial⟩)
  | @sent i input answer program hp hn =>
    refine hw.of_held rfl rfl (by simp [Owes, hp]) (by simp [hp, Phase.Failed]) fun policy hheld => ?_
    cases hheld with
    | @unsent j answer' program' h hs hpolicy =>
      by_cases hij : j = i
      · subst hij
        obtain ⟨-, rfl⟩ := Phase.compiled.inj (hp.symm.trans h)
        exact .sent (List.mem_append_right _ List.mem_cons_self) hs hpolicy
      · exact .unsent (by rwa [setPhase_of_ne _ hij]) hs hpolicy
    | sent h hs hpolicy => exact .sent (List.mem_append_left _ h) hs hpolicy
    | installed hs hpolicy => exact .installed hs hpolicy
  | @recorded i input answer program result hp =>
    refine setPhase (hw.congr ?_ rfl rfl rfl rfl rfl) (by simp [Owes, hp]) ?_ (by simp [hp])
    · cases result <;> rfl
    · change (w.phase i).Failed → _
      rw [hp]
      cases result <;> exact id
  | @responded i input answer result hp =>
    refine hw.setPhase (by simp [Owes, hp]) ?_ (by simp [hp])
    rw [hp]
    cases result <;> exact id
  | worked hn hc ha => exact hw.work hord hc ha
  | stopped => exact hw.stop hord
  | kernel => exact hw.congr rfl rfl rfl rfl rfl rfl

end Converging

theorem Synced.step (hw : w.inner.Synced) (hm : w.Merged requests)
    (ho : w.InOrder E requests event) (h : Moves requests w event w') : w'.inner.Synced := by
  cases h with
  | drafted hp hr hread =>
    obtain rfl := (congrArg Prod.snd hread).symm.trans (Inner.readDraft_snd _ _ _ _)
    exact hw
  | decided h => exact (h.section hm).synced ho.2.1 hw
  | uncompiled hp hc =>
    obtain ⟨lastError, rfl⟩ := Inner.compilePolicy_error hc
    exact hw
  | compiled hp hc =>
    obtain ⟨rfl, -⟩ := Inner.compilePolicy_ok hc
    exact hw
  | @recorded _ _ _ _ result hp =>
    cases result <;> exact hw
  | refused | sent | responded | worked | stopped | kernel => exact hw

/-- What holds along every run that keeps the order. -/
structure Invariant (E : Set Evidence) (requests : ι → Request) (w : World ι) : Prop where
  merged : w.Merged requests
  synced : w.inner.Synced
  ordered : w.Ordered
  reported : w.Reported
  converging : (∃ i, requests i = .startup) → w.Converging E requests

omit [DecidableEq ι] in
theorem Initial.invariant (h : w.Initial) : w.Invariant E requests where
  merged i := by rw [h.phase]; trivial
  synced := h.synced
  ordered := {
    unsent := by simp [h.phase]
    sent_le := by rw [h.sent, h.clock]
    sorted := by rw [h.channel]; exact List.Pairwise.nil
    channel_le := by simp [h.channel]
    installed_lt := by simp [h.channel]
    installed_le := by rw [h.installed, h.sent]
    queued := by simp [h.channel] }
  reported := {
    applied_le := by rw [h.policy]; exact Nat.zero_le _
    recorded_le := by rw [h.recorded, h.clock]
    carried_le := by rintro p ⟨i, hi⟩; simp [h.phase, Phase.program] at hi
    mono := by rintro p q ⟨i, hi⟩; simp [h.phase, Phase.program] at hi
    pending := by rintro p ⟨i, hi⟩; simp [h.phase, Phase.program] at hi
    result := by simp [h.phase] }
  converging := fun ⟨i, hi⟩ => Or.inl ⟨i, Or.inr ⟨hi, h.phase i⟩⟩

theorem Invariant.step (hw : w.Invariant E requests) (ho : w.InOrder E requests event)
    (h : Moves requests w event w') : w'.Invariant E requests where
  merged := hw.merged.step h
  synced := Synced.step hw.synced hw.merged ho h
  ordered := hw.ordered.step ho h
  reported := hw.reported.step hw.merged hw.ordered h
  converging hs := (hw.converging hs).step hw.merged hw.ordered hw.synced ho h

theorem Invariant.of_reachable {w₀ : World ι} (h₀ : w₀.Initial)
    (hr : (runs requests (InOrder E requests) w₀).Reachable w) : w.Invariant E requests := by
  refine hr.invariant ?_ ?_
  · rintro _ rfl
    exact h₀.invariant
  · rintro w w' hw ⟨event, ho, hstep⟩
    exact hw.step ho (step_moves hstep)

/-- The status never goes back in a run that keeps the order. -/
theorem appliedRevision_mono (hw : w.Invariant E requests) (ho : w.InOrder E requests event)
    (h : Moves requests w event w') :
    w.inner.policy.appliedRevision ≤ w'.inner.policy.appliedRevision := by
  cases h with
  | drafted hp hr hread =>
    obtain rfl := (congrArg Prod.snd hread).symm.trans (Inner.readDraft_snd _ _ _ _)
    exact le_rfl
  | decided h => exact (congrArg _ (h.section hw.merged).policy).ge
  | uncompiled hp hc =>
    obtain ⟨lastError, rfl⟩ := Inner.compilePolicy_error hc
    exact le_rfl
  | compiled hp hc =>
    obtain ⟨rfl, -⟩ := Inner.compilePolicy_ok hc
    exact le_rfl
  | @recorded i input answer program result hp =>
    cases result with
    | error e => exact le_rfl
    | ok summary =>
      obtain ⟨_, _, hlt⟩ := ho
      simp only [hp] at hlt
      have hcarried : w.Carries program := ⟨i, by rw [hp]; rfl⟩
      exact (hw.reported.pending program hcarried hlt).trans
        (hw.reported.result i answer program summary hp).ge
  | refused | sent | responded | worked | stopped | kernel => exact le_rfl

theorem installed_mono (hw : w.Invariant E requests) (h : Moves requests w event w') :
    w.installed ≤ w'.installed := by
  cases h with
  | @worked fault i program channel result core hn hc ha =>
    change w.installed ≤ if result.isOk then program.stamp else w.installed
    split
    · exact (hw.ordered.installed_lt (i, program) (hc ▸ List.mem_cons_self)).le
    · exact le_rfl
  | drafted | decided | uncompiled | compiled | refused | sent | recorded | responded | stopped
  | kernel => exact le_rfl

omit [DecidableEq ι] in
/-- With every request completed and every apply successful, the worker holds what was
compiled last, and that is the compilation of what is persisted. -/
theorem Invariant.applied (hw : w.Invariant E requests) (hs : ∃ i, requests i = .startup)
    (hd : w.AllApplied) : w.installed = w.clock ∧ ∃ evidence ∈ E, ∃ program,
      w.inner.db.compilation evidence = .ok program ∧ w.core.appliedPolicy = program.policy := by
  rcases hw.converging hs with ⟨i, hi⟩ | ⟨i, hi⟩ | ⟨evidence, he, program, hp, hheld⟩
  · have hdone := hd i
    rcases hi with ⟨_, h⟩ | ⟨_, h⟩ <;> simp [h, Phase.completed] at hdone
  · have hdone := hd i
    unfold Phase.Failed at hi
    split at hi
    · next h => simp [h, Phase.completed] at hdone
    · next h => simp [h, Phase.completed] at hdone
    · next h => simp [h, Phase.completed] at hdone
    · exact hi.elim
  · cases hheld with
    | @unsent i _ _ h =>
      have hdone := hd i
      simp [h, Phase.completed] at hdone
    | @sent entry h =>
      obtain ⟨_, hq⟩ := hw.ordered.queued entry h
      have hdone := hd entry.1
      simp [hq, Phase.completed] at hdone
    | installed hi hpolicy => exact ⟨hi, evidence, he, program, hp, hpolicy⟩

end World

open World

namespace Overtaking

/-- The startup, and two settings changes: enforcement off, and on again. -/
def requests : Fin 3 → Request
  | 0 => .startup
  | 1 => .patchSettings { trafficRules.enabled := some false }
  | 2 => .patchSettings { trafficRules.enabled := some true }

def advance (i : Fin 3) : Event (Fin 3) := .advance i { evidence := .none }

/-- The second change stores, compiles and sends between the first one's compilation and
its send. -/
def events : List (Event (Fin 3)) :=
  [advance 0, advance 0, advance 0, .work none, advance 0, advance 0,
    advance 1, advance 1, advance 2, advance 2, advance 2, advance 1,
    .work none, .work none, advance 1, advance 1, advance 2, advance 2]

theorem events_happen : ((World.start {}).follow requests events).isSome := by decide +kernel

/-- The world the events lead to. -/
def final : World (Fin 3) := ((World.start {}).follow requests events).get events_happen

end Overtaking

end ZimaScope
