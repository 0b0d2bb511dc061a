import ZimaScope.Api.Policy
import ZimaScope.Lib.System

/-! # Concurrent requests

The rule and settings requests as a transition system. A request runs its lock
sections one at a time; between them other requests, the worker and the packet
path move. A program leaves the lock before it enters the worker's channel, and
the answer is recorded in a section of its own.
-/

namespace ZimaScope

/-- What a handler is called with; `startup` is the daemon attaching the collector. -/
inductive Request
  | startup
  | create (request : CreateTrafficRuleRequest)
  | update (id : UInt32) (request : UpdateTrafficRuleRequest)
  | delete (id : UInt32)
  | putSettings (body : Settings)
  | patchSettings (patch : SettingsPatch)

/-- What a request's storage section decides to answer. -/
inductive Answer
  | started
  | created (record : TrafficRuleRecord)
  | updated (record : TrafficRuleRecord)
  | deleted
  | settings (settings : Settings)

inductive Response
  | problem (error : ApiError)
  | started
  | created (rule : TrafficRuleDto)
  | updated (rule : TrafficRuleDto)
  | noContent
  | settings (settings : Settings)

/-- What the environment gives one section: the clock, the statements that fail, the
evidence the resolver sees, and the kernel counters a response shows. -/
structure Input where
  now : ℤ := 0
  faults : List (Option String) := []
  evidence : Evidence
  counters : Option RuleState := none

/-- Reads a rule and merges a request into it: the rule found, and the draft. -/
def RuleDb.mergeDraft (id : UInt32) (request : UpdateTrafficRuleRequest) :
    Action (TrafficRule × TrafficRuleDraft) := do
  let record ← trafficRule id.toNat
  let draft ← .ofExcept (draftFromUpdate record.rule request)
  pure (record.rule, draft)

namespace Inner

variable (inner : Inner) (input : Input)

/-- The lock section of `create_traffic_rule`. -/
def createRule (draft : TrafficRuleDraft) : Except ApiError TrafficRuleRecord × Inner :=
  inner.run input.faults do
    let rules ← RuleDb.listTrafficRules
    if maxTrafficRules ≤ rules.length then
      .ofExcept (.error (.conflict s!"at most {maxTrafficRules} Traffic Rules are supported"))
    else RuleDb.insertTrafficRule draft input.now

/-- The first lock section of `update_traffic_rule`. -/
def readDraft (id : UInt32) (request : UpdateTrafficRuleRequest) :
    Except ApiError (TrafficRule × TrafficRuleDraft) × Inner :=
  inner.run input.faults (RuleDb.mergeDraft id request)

/-- The second lock section of `update_traffic_rule`: the draft replaces the row. -/
def writeDraft (id : UInt32) (draft : TrafficRuleDraft) :
    Except ApiError TrafficRuleRecord × Inner :=
  inner.run input.faults (RuleDb.updateTrafficRule id.toNat draft input.now)

def deleteRule (id : UInt32) : Except ApiError Unit × Inner :=
  inner.run input.faults (RuleDb.deleteTrafficRule id.toNat)

/-- Stores and installs settings; the version moves on even when storing fails. -/
def applySettings (settings : Settings) : Except ApiError Unit × Inner :=
  let inner := { inner with settingsVersion := inner.settingsVersion + 1 }
  match inner.run input.faults (RuleDb.saveSettings settings inner.settingsVersion) with
  | (.error e, inner) => (.error e, inner)
  | (.ok (), inner) => (.ok (), { inner with settings })

/-- The lock section of `put_settings`, which `patch_settings` runs on the patched settings. -/
def changeSettings (body : Settings) : Except ApiError Settings × Inner :=
  let settings := body.normalize
  match settings.validate with
  | .error e => (.error e, inner)
  | .ok () =>
    let (result, inner) := inner.applySettings input settings
    (result.map fun _ => inner.settings, inner)

/-- The storage section of a request that has only one. An update that is not
interleaved reads and writes in one go. -/
def serve : Request → Except ApiError Answer × Inner
  | .startup => (.ok .started, { inner with policyHandle := true })
  | .create request =>
    match draftFromCreate request with
    | .error e => (.error e, inner)
    | .ok draft =>
      ((inner.createRule input draft).1.map .created, (inner.createRule input draft).2)
  | .update id request =>
    let result := inner.run input.faults do
      let merged ← RuleDb.mergeDraft id request
      RuleDb.updateTrafficRule id.toNat merged.2 input.now
    (result.1.map .updated, result.2)
  | .delete id => ((inner.deleteRule input id).1.map fun _ => .deleted, (inner.deleteRule input id).2)
  | .putSettings body =>
    ((inner.changeSettings input body).1.map .settings, (inner.changeSettings input body).2)
  | .patchSettings patch =>
    ((inner.changeSettings input (patch.apply inner.settings)).1.map .settings,
      (inner.changeSettings input (patch.apply inner.settings)).2)

/-- The last lock section: what is answered, with the enforcement state of that moment. -/
def respond : Except ApiError Answer → Response
  | .error e => .problem e
  | .ok .started => .started
  | .ok (.created record) => .created (inner.trafficRuleDto record none)
  | .ok (.updated record) => .updated (inner.trafficRuleDto record input.counters)
  | .ok .deleted => .noContent
  | .ok (.settings settings) => .settings settings

end Inner

/-- A compiled program on its way to the worker. The stamp numbers programs in the order
they were compiled; no step reads it. -/
structure Stamped extends Compiled where
  stamp : ℕ

/-- Where a request stands. -/
inductive Phase
  | waiting
  | drafted (id : UInt32) (existing : TrafficRule) (draft : TrafficRuleDraft)
  | mutated (answer : Answer)
  | compiled (answer : Answer) (program : Stamped)
  | queued (answer : Answer) (program : Stamped)
  | replied (answer : Answer) (program : Stamped) (result : Except String ApplySummary)
  | applied (answer : Answer) (result : Except String ApplySummary)
  | done (response : Response) (applied : Option (Except String ApplySummary))

/-- After a storage section an error is answered at once; anything else applies the policy
first. -/
def Phase.settled : Except ApiError Answer → Phase
  | .error e => .done (.problem e) none
  | .ok answer => .mutated answer

/-- A request that decided, with what its storage section met. -/
structure Served (ι : Type) where
  request : ι
  input : Input

/-- The daemon with its requests. The fields from `clock` on are history: no step reads
them. -/
structure World (ι : Type) where
  inner : Inner
  core : CollectorCore
  running : Bool := true
  channel : List (ι × Stamped) := []
  phase : ι → Phase := fun _ => .waiting
  clock : ℕ := 0
  sent : ℕ := 0
  installed : ℕ := 0
  recorded : ℕ := 0
  journal : List (Served ι) := []

/-- The daemon before any request has run. -/
def World.start {ι : Type} (inner : Inner) : World ι := { inner, core := .start }

inductive Event (ι : Type)
  | advance (request : ι) (input : Input)
  | work (fault : Option KernelFault)
  | stop
  | kernel (maps : PolicyMaps)

def policyChannelCapacity : ℕ := 4

namespace World

variable {ι : Type} [DecidableEq ι] (w : World ι) (i : ι) (input : Input)

def setPhase (phase : Phase) : World ι := { w with phase := Function.update w.phase i phase }

/-- A storage section has decided. -/
def settle (input : Input) (outcome : Except ApiError Answer) (inner : Inner) : World ι :=
  { w with inner, journal := w.journal ++ [Served.mk i input] }.setPhase i (.settled outcome)

def begin (request : Request) : World ι :=
  match request with
  | .update id request =>
    match w.inner.readDraft input id request with
    | (.error e, inner) => w.settle i input (.error e) inner
    | (.ok (existing, draft), inner) => { w with inner }.setPhase i (.drafted id existing draft)
  | request => w.settle i input (w.inner.serve input request).1 (w.inner.serve input request).2

/-- What the second section of an update met, as an update in one go would meet it: with
the row still there its read succeeds first, without it the read decides. -/
def writeInput (id : UInt32) : Input :=
  if (w.inner.db.trafficRules.find id.toNat).isSome then
    { input with faults := none :: input.faults }
  else input

def write (id : UInt32) (draft : TrafficRuleDraft) : World ι :=
  w.settle i (w.writeInput input id) ((w.inner.writeDraft input id draft).1.map .updated)
    (w.inner.writeDraft input id draft).2

def compile (answer : Answer) : World ι :=
  match w.inner.compilePolicy input.faults input.evidence with
  | (.error e, inner) => { w with inner }.setPhase i (.applied answer (.error e))
  | (.ok compiled, inner) =>
    { w with inner, clock := w.clock + 1 }.setPhase i
      (.compiled answer { compiled with stamp := w.clock + 1 })

/-- Sending waits for room in the channel. -/
def send (answer : Answer) (program : Stamped) : Option (World ι) :=
  if w.running = false then
    some (w.setPhase i (.replied answer program (.error "collector worker is not running")))
  else if w.channel.length < policyChannelCapacity then
    some ({ w with channel := w.channel ++ [(i, program)], sent := program.stamp }.setPhase i
      (.queued answer program))
  else none

def record (answer : Answer) (program : Stamped) (result : Except String ApplySummary) : World ι :=
  { w with
    inner := w.inner.recordApply program.unresolved result
    recorded := if result.isOk then program.stamp else w.recorded }.setPhase i
      (.applied answer result)

def respond (answer : Answer) (result : Except String ApplySummary) : World ι :=
  w.setPhase i (.done (w.inner.respond input (.ok answer)) (some result))

/-- A request takes its next step, unless it waits for the worker or is done. -/
def advance (request : Request) : Option (World ι) :=
  match w.phase i with
  | .waiting => some (w.begin i input request)
  | .drafted id _ draft => some (w.write i input id draft)
  | .mutated answer => some (w.compile i input answer)
  | .compiled answer program => w.send i answer program
  | .queued .. => none
  | .replied answer program result => some (w.record i answer program result)
  | .applied answer result => some (w.respond i input answer result)
  | .done .. => none

/-- The reply a queued request gets. -/
def reply (result : Except String ApplySummary) (phase : Phase) : Phase :=
  match phase with
  | .queued answer program => .replied answer program result
  | phase => phase

/-- The worker takes the next command of its channel. -/
def work (fault : Option KernelFault) : Option (World ι) :=
  match w.running, w.channel with
  | true, (i, program) :: channel =>
    let (result, core) := w.core.answer fault program.policy
    some ({ w with
      core, channel
      installed := if result.isOk then program.stamp else w.installed }.setPhase i
        (reply result (w.phase i)))
  | _, _ => none

/-- The worker stops and drops the commands it has not taken. -/
def stop : World ι :=
  { w with
    running := false
    channel := []
    phase := fun i => reply (.error "collector worker dropped the policy request") (w.phase i) }

def step (requests : ι → Request) : Event ι → Option (World ι)
  | .advance i input => w.advance i input (requests i)
  | .work fault => w.work fault
  | .stop => some w.stop
  | .kernel maps => some { w with core.maps := maps }

/-- How a storage section of `i` decides: what it met, its outcome and what it leaves. -/
inductive Decides (requests : ι → Request) (w : World ι) (i : ι) (input : Input) :
    Input → Except ApiError Answer × Inner → Prop
  | served (h : w.phase i = .waiting) (hu : ∀ id r, requests i ≠ .update id r) :
    Decides requests w i input input (w.inner.serve input (requests i))
  | unread {id r e inner} (h : w.phase i = .waiting) (hr : requests i = .update id r)
    (hread : w.inner.readDraft input id r = (.error e, inner)) :
    Decides requests w i input input (.error e, inner)
  | written {id existing draft} (h : w.phase i = .drafted id existing draft) :
    Decides requests w i input (w.writeInput input id)
      ((w.inner.writeDraft input id draft).1.map .updated, (w.inner.writeDraft input id draft).2)

omit [DecidableEq ι] in
theorem Decides.undecided {requests : ι → Request} {w : World ι} {i : ι} {input entry : Input}
    {result : Except ApiError Answer × Inner} (h : Decides requests w i input entry result) :
    w.phase i = .waiting ∨ ∃ id existing draft, w.phase i = .drafted id existing draft := by
  cases h with
  | served hp => exact Or.inl hp
  | unread hp => exact Or.inl hp
  | written hp => exact Or.inr ⟨_, _, _, hp⟩

omit [DecidableEq ι] in
/-- Attaching the collector never fails. -/
theorem Decides.startup {requests : ι → Request} {w : World ι} {i : ι} {input entry : Input}
    {result : Except ApiError Answer × Inner} (h : Decides requests w i input entry result)
    (hr : requests i = .startup) (hp : w.phase i = .waiting) : result.1 = .ok .started := by
  cases h with
  | served _ hu =>
    rw [hr]
    rfl
  | unread _ hr' _ => simp [hr] at hr'
  | written hp' => simp [hp] at hp'

/-- Everything a step can be. -/
inductive Moves (requests : ι → Request) (w : World ι) : Event ι → World ι → Prop
  | drafted {i input id r existing draft inner} (h : w.phase i = .waiting)
    (hr : requests i = .update id r)
    (hread : w.inner.readDraft input id r = (.ok (existing, draft), inner)) :
    Moves requests w (.advance i input)
      ({ w with inner }.setPhase i (.drafted id existing draft))
  | decided {i input entry result} (h : Decides requests w i input entry result) :
    Moves requests w (.advance i input) (w.settle i entry result.1 result.2)
  | uncompiled {i input answer e inner} (h : w.phase i = .mutated answer)
    (hc : w.inner.compilePolicy input.faults input.evidence = (.error e, inner)) :
    Moves requests w (.advance i input)
      ({ w with inner }.setPhase i (.applied answer (.error e)))
  | compiled {i input answer compiled inner} (h : w.phase i = .mutated answer)
    (hc : w.inner.compilePolicy input.faults input.evidence = (.ok compiled, inner)) :
    Moves requests w (.advance i input)
      ({ w with inner, clock := w.clock + 1 }.setPhase i
        (.compiled answer { compiled with stamp := w.clock + 1 }))
  | refused {i input answer program} (h : w.phase i = .compiled answer program)
    (hn : w.running = false) : Moves requests w (.advance i input)
      (w.setPhase i (.replied answer program (.error "collector worker is not running")))
  | sent {i input answer program} (h : w.phase i = .compiled answer program)
    (hn : w.running = true) : Moves requests w (.advance i input)
      ({ w with channel := w.channel ++ [(i, program)], sent := program.stamp }.setPhase i
        (.queued answer program))
  | recorded {i input answer program result} (h : w.phase i = .replied answer program result) :
    Moves requests w (.advance i input) (w.record i answer program result)
  | responded {i input answer result} (h : w.phase i = .applied answer result) :
    Moves requests w (.advance i input) (w.respond i input answer result)
  | worked {fault i program channel result core} (hn : w.running = true)
    (hc : w.channel = (i, program) :: channel)
    (ha : w.core.answer fault program.policy = (result, core)) :
    Moves requests w (.work fault) ({ w with
      core, channel
      installed := if result.isOk then program.stamp else w.installed }.setPhase i
        (reply result (w.phase i)))
  | stopped : Moves requests w .stop w.stop
  | kernel {maps} : Moves requests w (.kernel maps) { w with core.maps := maps }

variable {requests : ι → Request} {w w' : World ι} {event : Event ι}

theorem begin_moves {i : ι} {input : Input} (h : w.phase i = .waiting) :
    Moves requests w (.advance i input) (w.begin i input (requests i)) := by
  by_cases hu : ∃ id r, requests i = .update id r
  · obtain ⟨id, r, hr⟩ := hu
    rw [hr]
    cases hread : w.inner.readDraft input id r with
    | mk outcome inner =>
      cases outcome with
      | error e =>
        simp only [begin, hread]
        exact .decided (.unread h hr hread)
      | ok merged =>
        simp only [begin, hread]
        exact .drafted h hr hread
  · have hne : ∀ id r, requests i ≠ .update id r := fun id r he => hu ⟨id, r, he⟩
    have hb : w.begin i input (requests i) = w.settle i input
        (w.inner.serve input (requests i)).1 (w.inner.serve input (requests i)).2 := by
      cases hr : requests i with
      | update id r => exact absurd hr (hne id r)
      | startup | create | delete | putSettings | patchSettings => rfl
    rw [hb]
    exact .decided (.served h hne)

theorem step_moves (h : w.step requests event = some w') : Moves requests w event w' := by
  cases event with
  | advance i input =>
    simp only [step, advance] at h
    split at h
    · next hp =>
      obtain rfl := Option.some.inj h
      exact begin_moves hp
    · next hp =>
      obtain rfl := Option.some.inj h
      exact .decided (.written hp)
    · next answer hp =>
      obtain rfl := Option.some.inj h
      cases hc : w.inner.compilePolicy input.faults input.evidence with
      | mk outcome inner =>
        cases outcome with
        | error e =>
          simp only [compile, hc]
          exact .uncompiled hp hc
        | ok compiled =>
          simp only [compile, hc]
          exact .compiled hp hc
    · next answer program hp =>
      unfold send at h
      split at h
      · next hn =>
        obtain rfl := Option.some.inj h
        exact .refused hp hn
      · next hn =>
        split at h
        · obtain rfl := Option.some.inj h
          exact .sent hp (by simpa using hn)
        · simp at h
    · simp at h
    · next hp =>
      obtain rfl := Option.some.inj h
      exact .recorded hp
    · next hp =>
      obtain rfl := Option.some.inj h
      exact .responded hp
    · simp at h
  | work fault =>
    simp only [step, work] at h
    split at h
    · next i program channel hn hc =>
      obtain rfl := Option.some.inj h
      exact .worked hn hc rfl
    · simp at h
  | stop =>
    obtain rfl := Option.some.inj h
    exact .stopped
  | kernel maps =>
    obtain rfl := Option.some.inj h
    exact .kernel

end World

/-- Runs from one world by events that `allowed` admits. -/
def World.runs {ι : Type} [DecidableEq ι] (requests : ι → Request)
    (allowed : World ι → Event ι → Prop) (w₀ : World ι) : System (World ι) where
  init w := w = w₀
  step w w' := ∃ event, allowed w event ∧ w.step requests event = some w'

/-- Where a list of events leads, if all of them can happen. -/
def World.follow {ι : Type} [DecidableEq ι] (requests : ι → Request) (w : World ι) :
    List (Event ι) → Option (World ι)
  | [] => some w
  | event :: events => (w.step requests event).bind fun w => w.follow requests events

theorem World.reachable_follow {ι : Type} [DecidableEq ι] {requests : ι → Request}
    {w₀ w w' : World ι} {events : List (Event ι)}
    (hr : (runs requests (fun _ _ => True) w₀).Reachable w)
    (h : w.follow requests events = some w') :
    (runs requests (fun _ _ => True) w₀).Reachable w' := by
  induction events generalizing w with
  | nil =>
    obtain rfl := Option.some.inj h
    exact hr
  | cons event events ih =>
    obtain ⟨w₁, hstep, hrest⟩ := Option.bind_eq_some_iff.mp h
    exact ih (hr.step ⟨event, trivial, hstep⟩) hrest

/-- A host without containers or stored process names. -/
def Evidence.none : Evidence := ⟨fun _ => [], fun _ => .none⟩

end ZimaScope
