import ZimaScope.Ebpf.Tc
import ZimaScope.Lib.System

/-! # The packet program on every CPU

The CPUs run the packet program side by side, and user space writes the Traffic Rules and the
owners in between. On its CPU a packet is counted, selects a rule, is enforced under the lock
of the rule state, and leaves; between these steps anything may happen elsewhere.
-/

namespace ZimaScope

/-- A packet that is a Flow observation, under way on a CPU. -/
structure PacketRun where
  skb : Skb
  direction : Direction
  packet : ParsedPacket
  parsed : parse (bpfCursor skb.data) = .ok packet
  observed : ℕ

namespace PacketRun

variable (run : PacketRun)

def key : AbiFlowKey := flowKey run.packet.toParsedFlow run.direction.toU8 run.skb.ifindex

/-- Whether there is payload by the headers. -/
def hasPayload : Bool := (run.skb.payload run.packet).available ≠ 0

end PacketRun

def parseRun (skb : Skb) (direction : Direction) (observed : ℕ) : Except Unparsed PacketRun :=
  match h : parse (bpfCursor skb.data) with
  | .ok packet => .ok ⟨skb, direction, packet, h, observed⟩
  | .error unparsed => .error unparsed

/-- Where a CPU is in the packet program. -/
inductive PacketPhase
  | idle
  | parsed (run : PacketRun)
  | selected (run : PacketRun) (rule : RuleRef)
  | dropped (run : PacketRun)
  | passed (run : PacketRun)

def PacketPhase.run? : PacketPhase → Option PacketRun
  | idle => none
  | parsed run | selected run _ | dropped run | passed run => some run

/-- What happens to the packets, in the order in which it does. -/
inductive PacketEvent (Cpu : Type)
  | arrived (cpu : Cpu) (result : Except Unparsed PacketRun)
  | enforced (cpu : Cpu) (run : PacketRun) (rule : RuleRef) (verdict : Option Verdict)
  | shot (cpu : Cpu) (run : PacketRun)
  | accounted (cpu : Cpu) (run : PacketRun) (recorded : Bool) (evicted : List AbiFlowKey)
      (service : Sampled ServiceSample) (domain : Sampled DomainSample)

structure PacketSystem (Cpu : Type) where
  maps : KernelMaps Cpu
  phase : Cpu → PacketPhase
  log : List (PacketEvent Cpu)

namespace PacketSystem

variable {Cpu : Type} [DecidableEq Cpu]

section Actions

variable (s : PacketSystem Cpu) (cpu : Cpu)

def goto (phase : PacketPhase) : PacketSystem Cpu := { s with phase := Function.update s.phase cpu phase }

def post (event : PacketEvent Cpu) : PacketSystem Cpu := { s with log := s.log ++ [event] }

def withMaps (maps : KernelMaps Cpu) : PacketSystem Cpu := { s with maps }

def arrive (skb : Skb) (direction : Direction) (observed : ℕ) : PacketSystem Cpu :=
  let result := parseRun skb direction observed
  match result with
  | .ok run =>
    ((s.withMaps (s.maps.onStats cpu PacketStats.recordSeenAndParsed)).goto cpu (.parsed run)).post
      (.arrived cpu result)
  | .error unparsed =>
    let maps := s.maps.onStats cpu PacketStats.recordSeen
    (s.withMaps (if unparsed.isFailure then maps.onStats cpu PacketStats.recordParseFailure
      else maps)).post (.arrived cpu result)

/-- The rule that the maps select; its lookups are taken at one moment. -/
def select (run : PacketRun) : PacketSystem Cpu :=
  match selectRule s.maps.policy s.maps.owners run.packet.toParsedFlow run.direction with
  | none => s.goto cpu (.passed run)
  | some rule => s.goto cpu (.selected run rule)

def enforce (run : PacketRun) (rule : RuleRef) (now : ℕ) : PacketSystem Cpu :=
  let (verdict, maps) := s.maps.enforceOn cpu rule run.direction run.skb.len now
  let found := s.maps.policy.states.lookup ⟨rule.ruleId, run.direction.toU8⟩
  ((s.withMaps maps).goto cpu (if verdict = .drop then .dropped run else .passed run)).post
    (.enforced cpu run rule (found.map fun _ => verdict))

def shoot (run : PacketRun) : PacketSystem Cpu :=
  ((s.withMaps (s.maps.onStats cpu fun stats => stats.recordPolicyDrop run.skb.len)).goto cpu
    .idle).post (.shot cpu run)

/-- The keys that an update takes out of the map: none unless it puts in a new one. -/
def evictedBy (run : PacketRun) (room : Room) : List AbiFlowKey :=
  match s.maps.flows run.key with
  | some _ => []
  | none => room.evicted.getD []

def account (run : PacketRun) (room : Room) : PacketSystem Cpu :=
  let (recorded, service, _) := s.maps.updateFlow cpu run.skb run.key run.packet run.observed room
  let domain := if recorded then
    sampleDomainsInto run.skb run.packet run.direction run.observed room.domain else .skipped
  ((s.withMaps (s.maps.account cpu run.skb run.direction run.packet run.observed room)).goto cpu
    .idle).post (.accounted cpu run recorded (s.evictedBy run room) service domain)

end Actions

/-- The steps of the CPUs, and what user space writes in between: `writes` says which contents of
the Traffic Rule maps it may put in the place of which. -/
inductive Step (writes : PolicyMaps → PolicyMaps → Prop) :
    PacketSystem Cpu → PacketSystem Cpu → Prop
  | arrive {s : PacketSystem Cpu} {cpu : Cpu} (skb : Skb) (direction : Direction) (observed : ℕ) (h : s.phase cpu = .idle) :
      Step writes s (s.arrive cpu skb direction observed)
  | select {s : PacketSystem Cpu} {cpu : Cpu} {run : PacketRun} (h : s.phase cpu = .parsed run) : Step writes s (s.select cpu run)
  | enforce {s : PacketSystem Cpu} {cpu : Cpu} {run : PacketRun} {rule : RuleRef} (now : ℕ) (h : s.phase cpu = .selected run rule) :
      Step writes s (s.enforce cpu run rule now)
  | shoot {s : PacketSystem Cpu} {cpu : Cpu} {run : PacketRun} (h : s.phase cpu = .dropped run) : Step writes s (s.shoot cpu run)
  | account {s : PacketSystem Cpu} {cpu : Cpu} {run : PacketRun} (room : Room) (h : s.phase cpu = .passed run) :
      Step writes s (s.account cpu run room)
  | write {s : PacketSystem Cpu} (policy : PolicyMaps) (h : writes s.maps.policy policy) :
      Step writes s (s.withMaps { s.maps with policy })
  | own {s : PacketSystem Cpu} (owners : OwnerMaps) : Step writes s (s.withMaps { s.maps with owners })

/-- Nothing has been counted, and no CPU runs the program. -/
structure Fresh (policy : PolicyMaps) (s : PacketSystem Cpu) : Prop where
  policy_eq : s.maps.policy = policy
  flows : s.maps.flows = fun _ => none
  stats : s.maps.stats = fun _ => {}
  domainEvents : s.maps.domainEvents = []
  serviceEvents : s.maps.serviceEvents = []
  phase : s.phase = fun _ => .idle
  log : s.log = []

end PacketSystem

/-- The packet program on the CPUs, from given Traffic Rule maps on. -/
def packetProgram (Cpu : Type) [DecidableEq Cpu] (policy : PolicyMaps)
    (writes : PolicyMaps → PolicyMaps → Prop) : System (PacketSystem Cpu) where
  init := PacketSystem.Fresh policy
  step := PacketSystem.Step writes

/-! ## One packet at a time -/

namespace PacketSystem

variable {Cpu : Type} [DecidableEq Cpu] {s : PacketSystem Cpu} {cpu : Cpu}
  {writes : PolicyMaps → PolicyMaps → Prop}

theorem parseRun_ok {skb : Skb} {direction : Direction} {observed : ℕ} {packet : ParsedPacket}
    (h : parse (bpfCursor skb.data) = .ok packet) :
    parseRun skb direction observed = .ok ⟨skb, direction, packet, h, observed⟩ := by
  unfold parseRun
  split
  · next packet' h' =>
    obtain rfl : packet = packet' := Except.ok.inj (h.symm.trans h')
    rfl
  · next unparsed h' => exact nomatch h.symm.trans h'

theorem parseRun_error {skb : Skb} {direction : Direction} {observed : ℕ} {unparsed : Unparsed}
    (h : parse (bpfCursor skb.data) = .error unparsed) :
    parseRun skb direction observed = .error unparsed := by
  unfold parseRun
  split
  · next packet h' => exact nomatch h.symm.trans h'
  · next unparsed' h' => exact congrArg Except.error (Except.error.inj (h'.symm.trans h))

theorem arrive_ok {skb : Skb} {direction : Direction} {observed : ℕ} {packet : ParsedPacket}
    (h : parse (bpfCursor skb.data) = .ok packet) :
    s.arrive cpu skb direction observed =
      ((s.withMaps (s.maps.onStats cpu PacketStats.recordSeenAndParsed)).goto cpu
        (.parsed ⟨skb, direction, packet, h, observed⟩)).post
          (.arrived cpu (.ok ⟨skb, direction, packet, h, observed⟩)) := by
  simp only [arrive, parseRun_ok h]

theorem arrive_error {skb : Skb} {direction : Direction} {observed : ℕ} {unparsed : Unparsed}
    (h : parse (bpfCursor skb.data) = .error unparsed) :
    s.arrive cpu skb direction observed =
      (s.withMaps (if unparsed.isFailure then
        (s.maps.onStats cpu PacketStats.recordSeen).onStats cpu PacketStats.recordParseFailure
      else s.maps.onStats cpu PacketStats.recordSeen)).post (.arrived cpu (.error unparsed)) := by
  simp only [arrive, parseRun_error h]

open Relation in
/-- A packet that nothing comes between is handled as `process` handles it. -/
theorem process_steps (hidle : s.phase cpu = .idle) (skb : Skb) (direction : Direction)
    (observed enforced : ℕ) (room : Room) :
    ∃ s', ReflTransGen (Step writes) s s' ∧
      s'.maps = (s.maps.process cpu skb direction observed enforced room).2 ∧ s'.phase = s.phase := by
  have harrive : Step writes s (s.arrive cpu skb direction observed) :=
    .arrive skb direction observed hidle
  have hback (f : Cpu → PacketPhase) (phase : PacketPhase) (hf : f = Function.update s.phase cpu phase) :
      Function.update f cpu .idle = s.phase := by
    rw [hf, Function.update_idem, ← hidle, Function.update_eq_self]
  cases hp : parse (bpfCursor skb.data) with
  | error unparsed =>
    refine ⟨_, .single harrive, ?_, ?_⟩
    · simp only [arrive_error hp, KernelMaps.process, hp]
      rfl
    · rw [arrive_error hp]
      rfl
  | ok packet =>
    let run : PacketRun := ⟨skb, direction, packet, hp, observed⟩
    rw [arrive_ok hp] at harrive
    set arrived := ((s.withMaps (s.maps.onStats cpu PacketStats.recordSeenAndParsed)).goto cpu
      (.parsed run)).post (.arrived cpu (.ok run))
    have hselect : Step writes arrived (arrived.select cpu run) := .select (Function.update_self ..)
    have hstart : ReflTransGen (Step writes) s (arrived.select cpu run) :=
      .tail (.single harrive) hselect
    cases hrule : selectRule arrived.maps.policy arrived.maps.owners packet.toParsedFlow direction with
    | none =>
      have hs : arrived.select cpu run = arrived.goto cpu (.passed run) := by
        simp only [select, run, hrule]
      rw [hs] at hstart
      refine ⟨_, .tail hstart (.account room (Function.update_self ..)), ?_, ?_⟩
      · rw [KernelMaps.process_pass hp (KernelMaps.evaluateOn_none hrule)]
        rfl
      · exact hback _ (.passed run) (Function.update_idem ..)
    | some rule =>
      have hs : arrived.select cpu run = arrived.goto cpu (.selected run rule) := by
        simp only [select, run, hrule]
      rw [hs] at hstart
      have hevaluate : arrived.maps.evaluateOn cpu packet.toParsedFlow direction skb.len enforced =
          arrived.maps.enforceOn cpu rule direction skb.len enforced :=
        KernelMaps.evaluateOn_some hrule
      have henforce : ReflTransGen (Step writes) s
          ((arrived.goto cpu (.selected run rule)).enforce cpu run rule enforced) :=
        .tail hstart (.enforce enforced (Function.update_self ..))
      have hmaps : (arrived.goto cpu (.selected run rule)).maps.enforceOn cpu rule run.direction
          run.skb.len enforced = arrived.maps.enforceOn cpu rule direction skb.len enforced := rfl
      unfold PacketSystem.enforce at henforce
      rw [hmaps] at henforce
      generalize arrived.maps.enforceOn cpu rule direction skb.len enforced = result at henforce hevaluate
      obtain ⟨verdict, maps⟩ := result
      cases verdict with
      | drop =>
        refine ⟨_, .tail henforce (.shoot (Function.update_self ..)), ?_, ?_⟩
        · rw [KernelMaps.process_drop hp hevaluate]
          rfl
        · refine hback _ (.dropped run) ?_
          exact (Function.update_idem ..).trans (Function.update_idem ..)
      | pass =>
        refine ⟨_, .tail henforce (.account room (Function.update_self ..)), ?_, ?_⟩
        · rw [KernelMaps.process_pass hp hevaluate]
          rfl
        · refine hback _ (.passed run) ?_
          exact (Function.update_idem ..).trans (Function.update_idem ..)

end PacketSystem

theorem reachable_of_steps {Cpu : Type} [DecidableEq Cpu] {s s' : PacketSystem Cpu}
    {policy : PolicyMaps} {writes : PolicyMaps → PolicyMaps → Prop}
    (hr : (packetProgram Cpu policy writes).Reachable s)
    (hsteps : Relation.ReflTransGen (PacketSystem.Step writes) s s') :
    (packetProgram Cpu policy writes).Reachable s' := by
  induction hsteps with
  | refl => exact hr
  | tail _ hstep ih => exact .step ih hstep

section Example

/-- Two CPUs before the first packet. -/
def idleSystem : PacketSystem Bool where
  maps := {
    policy := .empty
    owners := ⟨fun _ => none, fun _ => none⟩
    flows := fun _ => none
    stats := fun _ => {}
    domainEvents := []
    serviceEvents := [] }
  phase := fun _ => .idle
  log := []

theorem idleSystem_fresh : PacketSystem.Fresh .empty idleSystem := ⟨rfl, rfl, rfl, rfl, rfl, rfl, rfl⟩

/-- A datagram of one byte from 192.168.1.10:5000 to 10.0.0.1:9999. -/
def datagramFrame : Skb where
  bytes := [0, 0, 0, 0, 0, 0, 0, 0, 0, 0, 0, 0, 8, 0, 0x45, 0, 0, 29, 0, 0, 0, 0, 64, 17, 0, 0,
    192, 168, 1, 10, 10, 0, 0, 1, 0x13, 0x88, 0x27, 0x0F, 0, 9, 0, 0, 42]
  linear := 43
  ifindex := 2

def datagramKey : AbiFlowKey where
  srcAddr := ipv4Storage (.new 192 168 1 10)
  dstAddr := ipv4Storage (.new 10 0 0 1)
  srcPortBe := toBe 5000
  dstPortBe := toBe 9999
  ifindex := 2
  protocol := TransportProtocol.udp.toU8
  direction := Direction.outbound.toU8
  ipFamily := IpFamily.v4.toU8

/-- The maps after the datagram has left through the first CPU. -/
def afterDatagram : KernelMaps Bool :=
  (idleSystem.maps.process true datagramFrame .outbound 5 6 ⟨some [], true, true⟩).2

theorem exists_afterDatagram :
    ∃ s, (packetProgram Bool .empty fun _ _ => False).Reachable s ∧ s.maps = afterDatagram := by
  obtain ⟨s, hsteps, hmaps, -⟩ := @PacketSystem.process_steps Bool _ idleSystem true
    (fun _ _ => False) rfl datagramFrame .outbound 5 6 ⟨some [], true, true⟩
  exact ⟨s, reachable_of_steps (.init idleSystem_fresh) hsteps, hmaps⟩

end Example

end ZimaScope
