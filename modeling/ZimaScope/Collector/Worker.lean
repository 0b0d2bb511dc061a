import Mathlib.Data.List.Range
import Mathlib.Logic.Relation
import ZimaScope.Api.Requests
import ZimaScope.Lib.System

/-! # The collection worker

The loop that owns the collector, the bounded channels to it and from it, and the daemon that waits
for its startup commands before it takes batches. Commands come from any number of requests.
-/

namespace ZimaScope

def batchChannelCapacity : ℕ := 4

variable {σ C R B : Type}

/-- What the worker does with the collector: a command is handled, an interval polled. -/
structure WorkerCore (σ C R B : Type) where
  handle : C → σ → R × σ
  pollOnce : σ → B × σ

/-- A collector after some turns, with its replies and batches so far. -/
structure Serviced (σ R B : Type) where
  state : σ
  replies : List (ℕ × R)
  batches : List B

/-- One turn of the loop: a command or a tick, and the poll behind it. -/
def WorkerCore.turn (core : WorkerCore σ C R B) (served : Serviced σ R B) :
    Option (ℕ × C) → Serviced σ R B
  | none =>
    let polled := core.pollOnce served.state
    ⟨polled.2, served.replies, served.batches ++ [polled.1]⟩
  | some (id, command) =>
    let answered := core.handle command served.state
    let polled := core.pollOnce answered.2
    ⟨polled.2, served.replies ++ [(id, answered.1)], served.batches ++ [polled.1]⟩

inductive WorkerPhase (B : Type)
  | idle
  | publishing (batch : B)
  | stopped (unsent : Option B)

namespace WorkerPhase

def unsent : WorkerPhase B → Option B
  | idle => none
  | publishing batch => some batch
  | stopped unsent => unsent

def isRunning : WorkerPhase B → Bool
  | stopped _ => false
  | _ => true

end WorkerPhase

/-- The daemon sends its startup commands one after the other, takes batches afterwards and shuts the
collector down at its end. -/
inductive DaemonPhase (C : Type)
  | requesting (pending : List C)
  | awaiting (id : ℕ) (pending : List C)
  | receiving
  | stopping

/-- The worker, the channels and the daemon, with what was sent and served so far. -/
structure WorkerWorld (σ C R B : Type) where
  state : σ
  mailbox : List (ℕ × C)
  phase : WorkerPhase B
  channel : List B
  nextId : ℕ
  daemon : DaemonPhase C
  sent : List (ℕ × C)
  turns : List (Option (ℕ × C))
  replies : List (ℕ × R)
  received : List B

namespace WorkerWorld

section Operations

variable (core : WorkerCore σ C R B) (w : WorkerWorld σ C R B)

def send (command : C) : WorkerWorld σ C R B :=
  { w with
    mailbox := w.mailbox ++ [(w.nextId, command)]
    nextId := w.nextId + 1
    sent := w.sent ++ [(w.nextId, command)] }

/-- The first command of the mailbox is handled and answered, and an interval polled. -/
def serve (id : ℕ) (command : C) (rest : List (ℕ × C)) : WorkerWorld σ C R B :=
  let answered := core.handle command w.state
  let polled := core.pollOnce answered.2
  { w with
    state := polled.2
    mailbox := rest
    phase := .publishing polled.1
    turns := w.turns ++ [some (id, command)]
    replies := w.replies ++ [(id, answered.1)] }

def tick : WorkerWorld σ C R B :=
  let polled := core.pollOnce w.state
  { w with
    state := polled.2
    phase := .publishing polled.1
    turns := w.turns ++ [none] }

end Operations

/-- One step of the worker, of a request or of the daemon. The worker may take a tick although a
command waits: the command can arrive between the two polls of the biased select. -/
inductive Step (core : WorkerCore σ C R B) : WorkerWorld σ C R B → WorkerWorld σ C R B → Prop
  | send {w : WorkerWorld σ C R B} (command : C) (hrunning : w.phase.isRunning)
      (hroom : w.mailbox.length < policyChannelCapacity) : Step core w (w.send command)
  | request {w : WorkerWorld σ C R B} {command : C} {pending : List C}
      (hdaemon : w.daemon = .requesting (command :: pending))
      (hroom : w.mailbox.length < policyChannelCapacity) :
      Step core w { w.send command with daemon := .awaiting w.nextId pending }
  | proceed {w : WorkerWorld σ C R B} {id : ℕ} {pending : List C}
      (hdaemon : w.daemon = .awaiting id pending) (hreply : id ∈ w.replies.map Prod.fst) :
      Step core w { w with daemon := .requesting pending }
  | begin {w : WorkerWorld σ C R B} (hdaemon : w.daemon = .requesting []) :
      Step core w { w with daemon := .receiving }
  | serve {w : WorkerWorld σ C R B} {id : ℕ} {command : C} {rest : List (ℕ × C)}
      (hidle : w.phase = .idle) (hmailbox : w.mailbox = (id, command) :: rest) :
      Step core w (w.serve core id command rest)
  | tick {w : WorkerWorld σ C R B} (hidle : w.phase = .idle) : Step core w (w.tick core)
  | publish {w : WorkerWorld σ C R B} {batch : B} (hphase : w.phase = .publishing batch)
      (hroom : w.channel.length < batchChannelCapacity) :
      Step core w { w with channel := w.channel ++ [batch], phase := .idle }
  | receive {w : WorkerWorld σ C R B} {batch : B} {rest : List B} (hdaemon : w.daemon = .receiving)
      (hchannel : w.channel = batch :: rest) :
      Step core w { w with channel := rest, received := w.received ++ [batch] }
  | leave {w : WorkerWorld σ C R B} (hdaemon : w.daemon = .receiving) :
      Step core w { w with daemon := .stopping }
  | stop {w : WorkerWorld σ C R B} (hdaemon : w.daemon = .stopping) :
      Step core w { w with phase := .stopped w.phase.unsent }

/-- Before the first turn, with the commands of the startup. -/
def started (start : σ) (startup : List C) : WorkerWorld σ C R B where
  state := start
  mailbox := []
  phase := .idle
  channel := []
  nextId := 0
  daemon := .requesting startup
  sent := []
  turns := []
  replies := []
  received := []

end WorkerWorld

def workerProgram (core : WorkerCore σ C R B) (start : σ) : System (WorkerWorld σ C R B) where
  init w := ∃ startup, w = .started start startup
  step := WorkerWorld.Step core

/-! ## Order -/

/-- The collector has gone through the turns one after the other: the replies and the batches are
theirs, the commands were served in the order in which they were sent, and each request has a number
of its own. -/
structure Orderly (core : WorkerCore σ C R B) (start : σ) (w : WorkerWorld σ C R B) : Prop where
  served : w.turns.foldl core.turn ⟨start, [], []⟩ =
    ⟨w.state, w.replies, w.received ++ (w.channel ++ w.phase.unsent.toList)⟩
  commands : w.sent = w.turns.filterMap id ++ w.mailbox
  answered : w.replies.map Prod.fst = (w.turns.filterMap id).map Prod.fst
  numbers : w.sent.map Prod.fst = List.range w.nextId
  mailboxRoom : w.mailbox.length ≤ policyChannelCapacity
  channelRoom : w.channel.length ≤ batchChannelCapacity
  running : w.daemon = .stopping ∨ w.phase.isRunning

namespace Orderly

open WorkerWorld

variable {core : WorkerCore σ C R B} {start : σ} {w w' : WorkerWorld σ C R B}

theorem started (startup : List C) : Orderly core start (.started start startup) where
  served := rfl
  commands := rfl
  answered := rfl
  numbers := rfl
  mailboxRoom := Nat.zero_le _
  channelRoom := Nat.zero_le _
  running := Or.inr rfl

theorem send (h : Orderly core start w) (command : C)
    (hroom : w.mailbox.length < policyChannelCapacity) : Orderly core start (w.send command) where
  served := h.served
  commands := by
    unfold WorkerWorld.send
    rw [← List.append_assoc, ← h.commands]
  answered := h.answered
  numbers := by
    unfold WorkerWorld.send
    rw [List.map_append, h.numbers, List.range_succ]
    rfl
  mailboxRoom := by
    unfold WorkerWorld.send
    rw [List.length_append]
    exact hroom
  channelRoom := h.channelRoom
  running := h.running

theorem withDaemon (h : Orderly core start w) {daemon : DaemonPhase C}
    (hrunning : daemon = .stopping ∨ w.phase.isRunning) :
    Orderly core start { w with daemon := daemon } :=
  ⟨h.served, h.commands, h.answered, h.numbers, h.mailboxRoom, h.channelRoom, hrunning⟩

theorem working (h : Orderly core start w) (hdaemon : w.daemon ≠ .stopping) {daemon : DaemonPhase C} :
    daemon = .stopping ∨ w.phase.isRunning :=
  Or.inr (h.running.resolve_left hdaemon)

theorem serve (h : Orderly core start w) {id : ℕ} {command : C} {rest : List (ℕ × C)}
    (hidle : w.phase = .idle) (hmailbox : w.mailbox = (id, command) :: rest) :
    Orderly core start (w.serve core id command rest) where
  served := by
    have hserved := h.served
    rw [hidle] at hserved
    unfold WorkerWorld.serve
    simp only
    rw [List.foldl_concat, hserved]
    simp [WorkerCore.turn, WorkerPhase.unsent]
  commands := by
    have hcommands := h.commands
    rw [hmailbox] at hcommands
    unfold WorkerWorld.serve
    simp [hcommands]
  answered := by
    unfold WorkerWorld.serve
    simp [h.answered]
  numbers := h.numbers
  mailboxRoom := by
    have hroom := h.mailboxRoom
    rw [hmailbox, List.length_cons] at hroom
    exact (Nat.le_succ _).trans hroom
  channelRoom := h.channelRoom
  running := Or.inr rfl

theorem tick (h : Orderly core start w) (hidle : w.phase = .idle) : Orderly core start (w.tick core) where
  served := by
    have hserved := h.served
    rw [hidle] at hserved
    unfold WorkerWorld.tick
    simp only
    rw [List.foldl_concat, hserved]
    simp [WorkerCore.turn, WorkerPhase.unsent]
  commands := by
    unfold WorkerWorld.tick
    simp [h.commands]
  answered := by
    unfold WorkerWorld.tick
    simp [h.answered]
  numbers := h.numbers
  mailboxRoom := h.mailboxRoom
  channelRoom := h.channelRoom
  running := Or.inr rfl

theorem publish (h : Orderly core start w) {batch : B} (hphase : w.phase = .publishing batch)
    (hroom : w.channel.length < batchChannelCapacity) :
    Orderly core start { w with channel := w.channel ++ [batch], phase := .idle } where
  served := by
    rw [h.served, hphase]
    simp [WorkerPhase.unsent]
  commands := h.commands
  answered := h.answered
  numbers := h.numbers
  mailboxRoom := h.mailboxRoom
  channelRoom := by
    rw [List.length_append]
    exact hroom
  running := Or.inr rfl

theorem receive (h : Orderly core start w) {batch : B} {rest : List B}
    (hchannel : w.channel = batch :: rest) :
    Orderly core start { w with channel := rest, received := w.received ++ [batch] } where
  served := by
    rw [h.served, hchannel]
    simp
  commands := h.commands
  answered := h.answered
  numbers := h.numbers
  mailboxRoom := h.mailboxRoom
  channelRoom := by
    have hroom := h.channelRoom
    rw [hchannel, List.length_cons] at hroom
    exact (Nat.le_succ _).trans hroom
  running := h.running

theorem step (h : Orderly core start w) (hstep : Step core w w') : Orderly core start w' := by
  cases hstep with
  | send command _ hroom => exact h.send command hroom
  | request hdaemon hroom => exact (h.send _ hroom).withDaemon (h.working (by simp [hdaemon]))
  | proceed hdaemon _ => exact h.withDaemon (h.working (by simp [hdaemon]))
  | begin hdaemon => exact h.withDaemon (h.working (by simp [hdaemon]))
  | serve hidle hmailbox => exact h.serve hidle hmailbox
  | tick hidle => exact h.tick hidle
  | publish hphase hroom => exact h.publish hphase hroom
  | receive _ hchannel => exact h.receive hchannel
  | leave => exact h.withDaemon (Or.inl rfl)
  | stop hdaemon =>
    exact ⟨h.served, h.commands, h.answered, h.numbers, h.mailboxRoom, h.channelRoom, Or.inl hdaemon⟩

end Orderly

theorem orderly_of_reachable {core : WorkerCore σ C R B} {start : σ} {w : WorkerWorld σ C R B}
    (h : (workerProgram core start).Reachable w) : Orderly core start w := by
  refine h.invariant ?_ fun _ _ hw hstep => hw.step hstep
  rintro _ ⟨startup, rfl⟩
  exact .started startup

/-- Over any run, the replies and the batches are those of a collector that serves the commands one
after the other, in the order in which they were sent, with one poll behind each of them and behind
each tick; every request is answered at most once, no batch is lost, repeated or overtaken, neither
channel overflows, and only the daemon stops the worker. -/
theorem worker_serves_in_order {core : WorkerCore σ C R B} {start : σ} {w : WorkerWorld σ C R B}
    (h : (workerProgram core start).Reachable w) :
    w.turns.foldl core.turn ⟨start, [], []⟩ =
        ⟨w.state, w.replies, w.received ++ (w.channel ++ w.phase.unsent.toList)⟩ ∧
      w.sent = w.turns.filterMap id ++ w.mailbox ∧
      w.replies.map Prod.fst = (w.turns.filterMap id).map Prod.fst ∧
      (w.sent.map Prod.fst).Nodup ∧
      w.mailbox.length ≤ policyChannelCapacity ∧ w.channel.length ≤ batchChannelCapacity ∧
      (w.daemon = .stopping ∨ w.phase.isRunning) := by
  have horderly := orderly_of_reachable h
  refine ⟨horderly.served, horderly.commands, horderly.answered, ?_, horderly.mailboxRoom,
    horderly.channelRoom, horderly.running⟩
  rw [horderly.numbers]
  exact List.nodup_range

/-- A collector that counts its polls and replies to a command with its number and the count. -/
def countingCore : WorkerCore ℕ ℕ (ℕ × ℕ) ℕ where
  handle command polls := ((command, polls), polls)
  pollOnce polls := (polls + 1, polls + 1)

/-- A tick, then the command of the startup, then the first batch. -/
def firstBatch : WorkerWorld ℕ ℕ (ℕ × ℕ) ℕ where
  state := 2
  mailbox := []
  phase := .idle
  channel := [2]
  nextId := 1
  daemon := .receiving
  sent := [(0, 7)]
  turns := [none, some (0, 7)]
  replies := [(0, (7, 1))]
  received := [1]

theorem firstBatch_reachable : (workerProgram countingCore 0).Reachable firstBatch := by
  have hstart : (workerProgram countingCore 0).Reachable (.started 0 [7]) := .init ⟨_, rfl⟩
  have hticked := hstart.step (.tick rfl)
  have hpublished := hticked.step (.publish rfl (by decide))
  have hrequested := hpublished.step (.request rfl (by decide))
  have hserved := hrequested.step (.serve rfl rfl)
  have hreplied := hserved.step (.publish rfl (by decide))
  have hproceeded := hreplied.step (.proceed rfl List.mem_cons_self)
  have hbegun := hproceeded.step (.begin rfl)
  exact hbegun.step (.receive rfl rfl)

theorem firstBatch_served :
    [none, some (0, 7)].foldl countingCore.turn ⟨0, [], []⟩ = ⟨2, [(0, (7, 1))], [1, 2]⟩ :=
  (worker_serves_in_order firstBatch_reachable).1

/-! ## Startup -/

section Startup

open WorkerWorld

variable {core : WorkerCore σ C R B} {start : σ} {w w' : WorkerWorld σ C R B} {number : ℕ}
  {pending : List C} {before behind : List (ℕ × C)} {command : C}

/-- The daemon waits for a reply, and these commands are served before its own. -/
structure Awaits (w : WorkerWorld σ C R B) (number : ℕ) (before : List (ℕ × C)) : Prop where
  daemon : ∃ pending, w.daemon = .awaiting number pending
  mailbox : ∃ command behind, w.mailbox = before ++ (number, command) :: behind
  others : number ∉ before.map Prod.fst
  unanswered : number ∉ w.replies.map Prod.fst
  channelRoom : w.channel.length ≤ batchChannelCapacity

/-- The batches that the channel holds by the time the awaited command is served, at the least. -/
def batchesAhead (w : WorkerWorld σ C R B) (before : List (ℕ × C)) : ℕ :=
  w.channel.length + w.phase.unsent.toList.length + before.length

theorem batchesAhead_of_idle (h : w.phase = .idle) (before : List (ℕ × C)) :
    batchesAhead w before = w.channel.length + before.length := by
  unfold batchesAhead
  simp [h, WorkerPhase.unsent]

theorem batchesAhead_of_publishing {batch : B} (h : w.phase = .publishing batch)
    (before : List (ℕ × C)) : batchesAhead w before = w.channel.length + 1 + before.length := by
  unfold batchesAhead
  simp [h, WorkerPhase.unsent]

theorem Orderly.awaits (h : Orderly core start w) (hdaemon : w.daemon = .awaiting number pending)
    (hmailbox : w.mailbox = before ++ (number, command) :: behind) : Awaits w number before := by
  have hnodup : (w.sent.map Prod.fst).Nodup := by
    rw [h.numbers]
    exact List.nodup_range
  rw [h.commands, hmailbox, List.map_append, ← h.answered, List.map_append, List.map_cons] at hnodup
  obtain ⟨-, hmailboxes, hserved⟩ := List.nodup_append.mp hnodup
  refine ⟨⟨pending, hdaemon⟩, ⟨command, behind, hmailbox⟩, ?_, ?_, h.channelRoom⟩
  · intro hmem
    exact (List.nodup_append.mp hmailboxes).2.2 number hmem number List.mem_cons_self rfl
  · intro hmem
    exact hserved number hmem number (List.mem_append_right _ List.mem_cons_self) rfl

namespace Awaits

/-- A channel that will be full before the awaited command stays so: only the daemon takes batches. -/
theorem step (h : Awaits w number before) (hfull : batchChannelCapacity < batchesAhead w before)
    (hstep : Step core w w') :
    ∃ rest, Awaits w' number rest ∧ batchChannelCapacity < batchesAhead w' rest := by
  obtain ⟨pending, hdaemon⟩ := h.daemon
  obtain ⟨command, behind, hmailbox⟩ := h.mailbox
  cases hstep with
  | send other _ _ =>
    refine ⟨before, ⟨h.daemon, ⟨command, behind ++ [(w.nextId, other)], ?_⟩, h.others, h.unanswered,
      h.channelRoom⟩, hfull⟩
    unfold WorkerWorld.send
    simp [hmailbox]
  | request hrequesting _ =>
    rw [hdaemon] at hrequesting
    cases hrequesting
  | proceed hawaiting hreply =>
    rw [hdaemon] at hawaiting
    cases hawaiting
    exact absurd hreply h.unanswered
  | begin hrequesting =>
    rw [hdaemon] at hrequesting
    cases hrequesting
  | serve hidle hfirst =>
    cases before with
    | nil =>
      rw [batchesAhead_of_idle hidle] at hfull
      exact absurd h.channelRoom (not_le_of_gt hfull)
    | cons first before =>
      rw [hmailbox, List.cons_append] at hfirst
      obtain ⟨rfl, rfl⟩ := List.cons.inj hfirst
      have hothers := h.others
      rw [List.map_cons, List.mem_cons, not_or] at hothers
      refine ⟨before, ⟨h.daemon, ⟨command, behind, rfl⟩, hothers.2, ?_, h.channelRoom⟩, ?_⟩
      · unfold WorkerWorld.serve
        simp only [List.map_append, List.mem_append, not_or]
        exact ⟨h.unanswered, by simpa using hothers.1⟩
      · rw [batchesAhead_of_idle hidle, List.length_cons] at hfull
        rw [batchesAhead_of_publishing rfl, Nat.add_assoc, Nat.add_comm 1]
        exact hfull
  | tick hidle =>
    refine ⟨before, ⟨h.daemon, h.mailbox, h.others, h.unanswered, h.channelRoom⟩, ?_⟩
    rw [batchesAhead_of_idle hidle] at hfull
    rw [batchesAhead_of_publishing rfl]
    exact hfull.trans_le (Nat.add_le_add_right (Nat.le_succ _) _)
  | publish hphase hroom =>
    refine ⟨before, ⟨h.daemon, h.mailbox, h.others, h.unanswered, ?_⟩, ?_⟩
    · rw [List.length_append]
      exact hroom
    · rw [batchesAhead_of_publishing hphase] at hfull
      rw [batchesAhead_of_idle rfl, List.length_append]
      exact hfull
  | receive hreceiving _ =>
    rw [hdaemon] at hreceiving
    cases hreceiving
  | leave hreceiving =>
    rw [hdaemon] at hreceiving
    cases hreceiving
  | stop hstopping =>
    rw [hdaemon] at hstopping
    cases hstopping

theorem unanswered_of_run (h : Awaits w number before)
    (hfull : batchChannelCapacity < batchesAhead w before)
    (hrun : Relation.ReflTransGen (Step core) w w') : number ∉ w'.replies.map Prod.fst := by
  have hwaits : ∃ rest, Awaits w' number rest ∧ batchChannelCapacity < batchesAhead w' rest := by
    induction hrun with
    | refl => exact ⟨before, h, hfull⟩
    | tail _ hstep ih =>
      obtain ⟨_, hmid, hmidfull⟩ := ih
      exact hmid.step hmidfull hstep
  obtain ⟨_, hend, -⟩ := hwaits
  exact hend.unanswered

end Awaits

theorem exists_publish {batch : B} (hphase : w.phase = .publishing batch)
    (hroom : w.channel.length < batchChannelCapacity) :
    ∃ w', Step core w w' ∧ w'.mailbox = w.mailbox ∧ w'.phase = .idle ∧
      w'.channel.length = w.channel.length + 1 :=
  ⟨_, .publish hphase hroom, rfl, rfl, List.length_append⟩

theorem exists_reply (hmailbox : w.mailbox = before ++ (number, command) :: behind)
    (hidle : w.phase = .idle) (hroom : w.channel.length + before.length ≤ batchChannelCapacity) :
    ∃ w', Relation.ReflTransGen (Step core) w w' ∧ number ∈ w'.replies.map Prod.fst := by
  induction before generalizing w with
  | nil =>
    refine ⟨_, .single (.serve hidle hmailbox), ?_⟩
    unfold WorkerWorld.serve
    simp
  | cons first before ih =>
    rw [List.length_cons] at hroom
    have hserve : Step core w (w.serve core first.1 first.2 (before ++ (number, command) :: behind)) :=
      .serve hidle hmailbox
    have hlt : (w.serve core first.1 first.2 (before ++ (number, command) :: behind)).channel.length <
        batchChannelCapacity := by
      change w.channel.length < batchChannelCapacity
      omega
    obtain ⟨mid, hpublish, hrest, hmid, hlength⟩ := @exists_publish _ _ _ _ core _ _ rfl hlt
    have hmidroom : mid.channel.length + before.length ≤ batchChannelCapacity := by
      rw [hlength]
      change w.channel.length + 1 + before.length ≤ batchChannelCapacity
      omega
    obtain ⟨w', hrun, hreply⟩ := ih hrest hmid hmidroom
    exact ⟨w', .head hserve (.head hpublish hrun), hreply⟩

/-- While the daemon waits for the reply to a startup command it takes no batches, and the worker does
not serve a command before its last batch is in the channel: the reply can still come if and only if
the channel has room for the batch in hand and for those of the commands served before. -/
theorem startup_answered_iff (h : (workerProgram core start).Reachable w)
    (hdaemon : w.daemon = .awaiting number pending)
    (hmailbox : w.mailbox = before ++ (number, command) :: behind) :
    (∃ w', Relation.ReflTransGen (Step core) w w' ∧ number ∈ w'.replies.map Prod.fst) ↔
      batchesAhead w before ≤ batchChannelCapacity := by
  have horderly := orderly_of_reachable h
  constructor
  · rintro ⟨w', hrun, hreply⟩
    by_contra hfull
    exact (horderly.awaits hdaemon hmailbox).unanswered_of_run (not_le.mp hfull) hrun hreply
  · intro hroom
    cases hphase : w.phase with
    | idle =>
      rw [batchesAhead_of_idle hphase] at hroom
      exact exists_reply hmailbox hphase hroom
    | publishing batch =>
      rw [batchesAhead_of_publishing hphase] at hroom
      have hlt : w.channel.length < batchChannelCapacity := by omega
      obtain ⟨mid, hpublish, hrest, hidle, hlength⟩ := @exists_publish _ _ _ _ core _ _ hphase hlt
      obtain ⟨w', hrun, hreply⟩ := exists_reply (hrest.trans hmailbox) hidle (hlength ▸ hroom)
      exact ⟨w', .head hpublish hrun, hreply⟩
    | stopped unsent =>
      rcases horderly.running with hstopping | hrunning
      · rw [hdaemon] at hstopping
        cases hstopping
      · rw [hphase] at hrunning
        cases hrunning

/-- Five intervals pass before the startup command is sent. -/
def lateStartup : WorkerWorld ℕ ℕ (ℕ × ℕ) ℕ where
  state := 5
  mailbox := [(0, 7)]
  phase := .publishing 5
  channel := [1, 2, 3, 4]
  nextId := 1
  daemon := .awaiting 0 []
  sent := [(0, 7)]
  turns := [none, none, none, none, none]
  replies := []
  received := []

theorem lateStartup_reachable : (workerProgram countingCore 0).Reachable lateStartup := by
  have hstart : (workerProgram countingCore 0).Reachable (.started 0 [7]) := .init ⟨_, rfl⟩
  have hfirst := (hstart.step (.tick rfl)).step (.publish rfl (by decide))
  have hsecond := (hfirst.step (.tick rfl)).step (.publish rfl (by decide))
  have hthird := (hsecond.step (.tick rfl)).step (.publish rfl (by decide))
  have hfourth := (hthird.step (.tick rfl)).step (.publish rfl (by decide))
  exact (hfourth.step (.tick rfl)).step (.request rfl (by decide))

theorem lateStartup_unanswered : ¬∃ w', Relation.ReflTransGen (Step countingCore) lateStartup w' ∧
    0 ∈ w'.replies.map Prod.fst := by
  have hiff := @startup_answered_iff _ _ _ _ countingCore 0 lateStartup 0 [] [] [] 7
    lateStartup_reachable rfl rfl
  rw [hiff]
  decide

end Startup

end ZimaScope
