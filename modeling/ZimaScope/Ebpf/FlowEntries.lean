import ZimaScope.Ebpf.Interleaving
import ZimaScope.Lib.History

/-! # Flow entries and first payloads

What the Flow map holds at any moment: under each key, for each CPU, what the frames carried
that the CPU recorded since the entry was created. The first of them with payload was sampled.
-/

namespace ZimaScope

/-! ## The frames of an entry -/

namespace FlowFrame

variable {key : AbiFlowKey} (frame : FlowFrame key)

/-- Whether there is payload by the headers. -/
def hasPayload : Bool := frame.packet.payloadEnd - frame.packet.payloadOffset ≠ 0

end FlowFrame

namespace PacketRun

variable (run : PacketRun)

def frame : FlowFrame run.key where
  bytes := run.skb.data
  packet := run.packet
  parsed := (parse_bpfCursor _).symm.trans run.parsed
  key_eq := rfl
  now := run.observed
  packetLen := run.skb.len

/-- The length of the sample of a first payload. -/
def sampleLen : ℕ := min (run.packet.payloadEnd - run.packet.payloadOffset) serviceSampleMax

/-- The sample of a first payload: as many of its bytes as fit. -/
def serviceSample : ServiceSample where
  observedMonoNs := run.observed
  key := run.key
  payloadLen := .ofNat run.sampleLen
  payload := serviceBuffer ((run.skb.bytes.drop run.packet.payloadOffset).take run.sampleLen)

end PacketRun

namespace PacketEvent

variable {Cpu : Type} [DecidableEq Cpu]

/-- The keys whose entries an event takes out of the Flow map. -/
def evictedKeys : PacketEvent Cpu → List AbiFlowKey
  | accounted _ _ _ evicted _ _ => evicted
  | _ => []

/-- The packet that an event records on a CPU under a key. -/
def frame? (key : AbiFlowKey) (cpu : Cpu) : PacketEvent Cpu → Option (FlowFrame key)
  | accounted c run recorded _ _ _ =>
    if h : run.key = key then
      if recorded ∧ c = cpu then some (h ▸ run.frame) else none
    else none
  | _ => none

/-- The samples that an event adds to the service ring. -/
def serviceSample? : PacketEvent Cpu → Option ServiceSample
  | accounted _ _ _ _ service _ => service.sample?
  | _ => none

def domainSample? : PacketEvent Cpu → Option DomainSample
  | accounted _ _ _ _ _ domain => domain.sample?
  | _ => none

/-- The frames of an entry on a CPU after an event. -/
def framesAfter (key : AbiFlowKey) (cpu : Cpu) (frames : List (FlowFrame key))
    (event : PacketEvent Cpu) : List (FlowFrame key) :=
  (if key ∈ event.evictedKeys then [] else frames) ++ (event.frame? key cpu).toList

end PacketEvent

/-- The frames that a CPU has recorded under a key since the key was last evicted. -/
def framesSince {Cpu : Type} [DecidableEq Cpu] (log : List (PacketEvent Cpu)) (key : AbiFlowKey)
    (cpu : Cpu) : List (FlowFrame key) :=
  log.foldl (PacketEvent.framesAfter key cpu) []

/-- A value of an entry: what its frames carried, and whether one of them was sampled. -/
structure SlotOf {key : AbiFlowKey} (frames : List (FlowFrame key)) (slot : FlowSlot) : Prop where
  entry : slot.toFlowEntry = frames.foldl FlowFrame.recordIn {}
  flags : slot.serviceFlags = if frames.any FlowFrame.hasPayload then serviceSampledFlag else 0

/-- What the update of an entry finds on its CPU. -/
def PacketSystem.slotAt {Cpu : Type} (s : PacketSystem Cpu) (key : AbiFlowKey) (cpu : Cpu) : FlowSlot :=
  ((s.maps.flows key).map fun slots => slots cpu).getD {}

/-- The Flow map holds the entries that the log says. -/
structure HoldsFrames {Cpu : Type} [DecidableEq Cpu] (s : PacketSystem Cpu) : Prop where
  slot : ∀ key cpu, SlotOf (framesSince s.log key cpu) (s.slotAt key cpu)
  absent : ∀ key cpu, s.maps.flows key = none → framesSince s.log key cpu = []

/-! ## One packet -/

section Sample

variable {run : PacketRun} {slot : FlowSlot} {reserved sampled : Bool}

theorem PacketRun.protocol_eq : run.packet.protocol = TransportProtocol.tcp.toU8 ∨
    run.packet.protocol = TransportProtocol.udp.toU8 := by
  obtain ⟨headers, hat⟩ := parse_eq_ok run.parsed
  have hl4 := hat.l4Header
  generalize run.packet.protocol = protocol, run.packet.tcpFlags = tcpFlags,
    headers.l4HeaderLen = len at hl4 ⊢
  cases hl4 with
  | tcp hread hlen => exact Or.inl rfl
  | udp => exact Or.inr rfl

/-- A sample is attempted for the first payload, and marks the value. -/
theorem sampleService_spec
    (hflags : slot.serviceFlags = if sampled then serviceSampledFlag else 0) :
    (sampleService run.skb run.key run.packet slot run.observed reserved).1 =
        { slot with serviceFlags :=
            if sampled || run.frame.hasPayload then serviceSampledFlag else 0 } ∧
      (sampleService run.skb run.key run.packet slot run.observed reserved).2.attempted =
        (!sampled && run.frame.hasPayload) ∧
      ∀ sample, (sampleService run.skb run.key run.packet slot run.observed reserved).2 =
        .emitted sample → sample = run.serviceSample := by
  have hprotocol : ¬ (run.packet.protocol ≠ TransportProtocol.tcp.toU8 ∧
      run.packet.protocol ≠ TransportProtocol.udp.toU8) := by
    rw [not_and_or, not_not, not_not]
    exact run.protocol_eq
  have hpayload : run.frame.hasPayload = decide ((run.skb.payload run.packet).available ≠ 0) := rfl
  unfold sampleService
  cases sampled with
  | true =>
    have hslot : slot = { slot with serviceFlags := serviceSampledFlag } :=
      congrArg (FlowSlot.mk slot.toFlowEntry) hflags
    have hset : slot.serviceFlags &&& serviceSampledFlag ≠ 0 := by
      rw [show slot.serviceFlags = serviceSampledFlag from hflags]
      decide
    rw [if_pos hset]
    exact ⟨hslot, rfl, nofun⟩
  | false =>
    have hslot : slot = { slot with serviceFlags := 0 } :=
      congrArg (FlowSlot.mk slot.toFlowEntry) hflags
    have hflags : slot.serviceFlags = 0 := hflags
    have hunset : ¬ slot.serviceFlags &&& serviceSampledFlag ≠ 0 := by
      rw [hflags]
      decide
    rw [if_neg hunset, if_neg hprotocol]
    by_cases havailable : (run.skb.payload run.packet).available = 0
    · simp only [hpayload, havailable, ne_eq, not_true_eq_false, decide_false]
      exact ⟨hslot, rfl, nofun⟩
    · have hlen : min ((run.skb.payload run.packet).available - 1) (serviceSampleMax - 1) + 1 =
          run.sampleLen := by
        change _ = min (run.skb.payload run.packet).available serviceSampleMax
        unfold serviceSampleMax
        omega
      simp only [hpayload, ne_eq, havailable, not_false_eq_true, decide_true, hlen]
      have hmarked : { slot with serviceFlags := slot.serviceFlags ||| serviceSampledFlag } =
          { slot with serviceFlags := serviceSampledFlag } := by
        rw [hflags, show (0 : UInt16) ||| serviceSampledFlag = serviceSampledFlag by decide]
      cases reserved with
      | false => exact ⟨hmarked, rfl, nofun⟩
      | true =>
        simp only [if_true]
        cases hload : (run.skb.payload run.packet).load run.sampleLen with
        | none => exact ⟨hmarked, rfl, nofun⟩
        | some bytes =>
          refine ⟨hmarked, rfl, ?_⟩
          rintro _ ⟨⟩
          unfold PacketPayload.load MemoryCursor.slice at hload
          rw [Option.ite_none_right_eq_some] at hload
          obtain ⟨-, hbytes⟩ := hload
          obtain rfl := Option.some.inj hbytes
          rfl

end Sample

/-! ## The run -/

namespace PacketSystem

variable {Cpu : Type} [DecidableEq Cpu] {s s' : PacketSystem Cpu} {cpu : Cpu} {run : PacketRun}
  {room : Room} {writes : PolicyMaps → PolicyMaps → Prop}

theorem framesSince_append (log : List (PacketEvent Cpu)) (event : PacketEvent Cpu)
    (key : AbiFlowKey) (c : Cpu) : framesSince (log ++ [event]) key c =
      event.framesAfter key c (framesSince log key c) := by
  unfold framesSince
  rw [List.foldl_append]
  rfl

/-- The sampled value of the packet that an update records. -/
def sampledSlot (s : PacketSystem Cpu) (cpu : Cpu) (run : PacketRun) (room : Room) :
    FlowSlot × Sampled ServiceSample :=
  sampleService run.skb run.key run.packet
    ((s.slotAt run.key cpu).record run.packet run.observed run.skb.len) run.observed room.service

/-- Whether an update finds an entry, or room for one. -/
def records (s : PacketSystem Cpu) (run : PacketRun) (room : Room) : Bool :=
  (s.maps.flows run.key).isSome || room.evicted.isSome

theorem updateFlow_eq (s : PacketSystem Cpu) (cpu : Cpu) (run : PacketRun) (room : Room) :
    (s.maps.updateFlow cpu run.skb run.key run.packet run.observed room).1 = s.records run room ∧
      (s.maps.updateFlow cpu run.skb run.key run.packet run.observed room).2.1 =
        (s.sampledSlot cpu run room).2 := by
  unfold KernelMaps.updateFlow records sampledSlot slotAt
  cases s.maps.flows run.key with
  | some slots => exact ⟨rfl, rfl⟩
  | none => cases room.evicted <;> exact ⟨rfl, rfl⟩

theorem flows_updateFlow (key : AbiFlowKey) :
    (s.maps.updateFlow cpu run.skb run.key run.packet run.observed room).2.2.flows key =
      if key = run.key then
        if s.records run room then
          some (Function.update ((s.maps.flows run.key).getD fun _ => {}) cpu
            (s.sampledSlot cpu run room).1)
        else none
      else if key ∈ s.evictedBy run room then none else s.maps.flows key := by
  unfold KernelMaps.updateFlow records sampledSlot slotAt evictedBy
  cases hslots : s.maps.flows run.key with
  | some slots =>
    simp only [Option.isSome_some, Bool.true_or, if_true, List.not_mem_nil, if_false,
      Function.update_apply]
    rfl
  | none =>
    cases room.evicted with
    | some evicted =>
      simp only [KernelMaps.insertFlow, Function.update_apply]
      rfl
    | none =>
      simp only [Option.getD_none, List.not_mem_nil, if_false, Option.isSome_none, Bool.or_self,
        Bool.false_eq_true]
      split
      · next hkey => rw [hkey, hslots]
      · rfl

/-- The domain sample of a packet that an update records. -/
def domainSampled (s : PacketSystem Cpu) (run : PacketRun) (room : Room) : Sampled DomainSample :=
  if s.records run room then
    sampleDomainsInto run.skb run.packet run.direction run.observed room.domain
  else .skipped

theorem log_account : (s.account cpu run room).log = s.log ++
    [.accounted cpu run (s.records run room) (s.evictedBy run room) (s.sampledSlot cpu run room).2
      (s.domainSampled run room)] := by
  obtain ⟨hrecords, hservice⟩ := updateFlow_eq s cpu run room
  unfold domainSampled
  rw [← hrecords, ← hservice]
  rfl

theorem flows_account (key : AbiFlowKey) : (s.account cpu run room).maps.flows key =
    if key = run.key then
      if s.records run room then
        some (Function.update ((s.maps.flows run.key).getD fun _ => {}) cpu
          (s.sampledSlot cpu run room).1)
      else none
    else if key ∈ s.evictedBy run room then none else s.maps.flows key := by
  rw [← flows_updateFlow]
  change (s.maps.account cpu run.skb run.direction run.packet run.observed room).flows key = _
  rw [KernelMaps.account_eq]
  rfl

end PacketSystem

section Step

variable {Cpu : Type} [DecidableEq Cpu] {s s' : PacketSystem Cpu} {cpu : Cpu} {run : PacketRun}
  {room : Room} {writes : PolicyMaps → PolicyMaps → Prop}

/-- The value that an update writes, and the sample that it takes. -/
theorem HoldsFrames.sampledSlot (h : HoldsFrames s) (cpu : Cpu) (run : PacketRun) (room : Room) :
    SlotOf (framesSince s.log run.key cpu ++ [run.frame]) (s.sampledSlot cpu run room).1 ∧
      (s.sampledSlot cpu run room).2.attempted =
        (!(framesSince s.log run.key cpu).any FlowFrame.hasPayload && run.frame.hasPayload) ∧
      ∀ sample, (s.sampledSlot cpu run room).2 = .emitted sample → sample = run.serviceSample := by
  obtain ⟨hentry, hflags⟩ := h.slot run.key cpu
  have hrecord : ((s.slotAt run.key cpu).record run.packet run.observed run.skb.len).serviceFlags =
      if (framesSince s.log run.key cpu).any FlowFrame.hasPayload then serviceSampledFlag else 0 :=
    hflags
  obtain ⟨hslot, hattempted, hsample⟩ := sampleService_spec hrecord
  refine ⟨⟨?_, ?_⟩, hattempted, hsample⟩
  · unfold PacketSystem.sampledSlot
    rw [hslot, List.foldl_append, ← hentry]
    rfl
  · unfold PacketSystem.sampledSlot
    rw [hslot, List.any_append, List.any_cons, List.any_nil, Bool.or_false]

theorem slotOf_nil {key : AbiFlowKey} : SlotOf ([] : List (FlowFrame key)) {} := ⟨rfl, rfl⟩

theorem slotAt_account (key : AbiFlowKey) (c : Cpu) : (s.account cpu run room).slotAt key c =
    if key = run.key then
      if s.records run room then
        if c = cpu then (s.sampledSlot cpu run room).1 else s.slotAt run.key c
      else {}
    else if key ∈ s.evictedBy run room then {} else s.slotAt key c := by
  unfold PacketSystem.slotAt
  rw [PacketSystem.flows_account]
  split
  · split
    · simp only [Option.map_some, Option.getD_some, Function.update_apply]
      split
      · rfl
      · cases s.maps.flows run.key <;> rfl
    · rfl
  · split <;> rfl

theorem framesSince_account (key : AbiFlowKey) (c : Cpu) :
    framesSince (s.account cpu run room).log key c =
      (if key ∈ s.evictedBy run room then [] else framesSince s.log key c) ++
        (if h : run.key = key then
          if s.records run room ∧ c = cpu then some (h ▸ run.frame) else none
        else none : Option (FlowFrame key)).toList := by
  rw [PacketSystem.log_account, PacketSystem.framesSince_append]
  unfold PacketEvent.framesAfter PacketEvent.evictedKeys PacketEvent.frame?
  simp only [eq_comm]

omit [DecidableEq Cpu] in
theorem flows_of_not_records (h : ¬ s.records run room) : s.maps.flows run.key = none := by
  unfold PacketSystem.records at h
  rw [Bool.or_eq_true, not_or, Option.not_isSome_iff_eq_none] at h
  exact h.1

/-- An update takes no frames from the entry that it updates. -/
theorem HoldsFrames.kept (h : HoldsFrames s) (c : Cpu) :
    (if run.key ∈ s.evictedBy run room then [] else framesSince s.log run.key c) =
      framesSince s.log run.key c := by
  cases hflows : s.maps.flows run.key with
  | none =>
    rw [h.absent run.key c hflows]
    exact ite_self _
  | some slots =>
    unfold PacketSystem.evictedBy
    rw [hflows]
    exact if_neg List.not_mem_nil

theorem HoldsFrames.account (h : HoldsFrames s) : HoldsFrames (s.account cpu run room) := by
  constructor
  · intro key c
    rw [framesSince_account, slotAt_account]
    by_cases hkey : run.key = key
    · subst hkey
      rw [dif_pos rfl, if_pos rfl, h.kept]
      by_cases hrecords : s.records run room
      · rw [if_pos hrecords]
        by_cases hc : c = cpu
        · subst hc
          rw [if_pos ⟨hrecords, rfl⟩, if_pos rfl]
          exact (h.sampledSlot c run room).1
        · rw [if_neg (not_and_of_not_right _ hc), if_neg hc, Option.toList_none, List.append_nil]
          exact h.slot run.key c
      · rw [if_neg hrecords, if_neg (not_and_of_not_left _ hrecords), Option.toList_none,
          List.append_nil, h.absent run.key c (flows_of_not_records hrecords)]
        exact slotOf_nil
    · rw [dif_neg hkey, if_neg (Ne.symm hkey), Option.toList_none, List.append_nil]
      split
      · exact slotOf_nil
      · exact h.slot key c
  · intro key c hflows
    rw [PacketSystem.flows_account] at hflows
    rw [framesSince_account]
    by_cases hkey : run.key = key
    · subst hkey
      rw [if_pos rfl] at hflows
      have hrecords : ¬ s.records run room := by
        intro hrecords
        rw [if_pos hrecords] at hflows
        exact Option.some_ne_none _ hflows
      rw [dif_pos rfl, h.kept, if_neg (not_and_of_not_left _ hrecords), Option.toList_none,
        List.append_nil]
      exact h.absent run.key c (flows_of_not_records hrecords)
    · rw [if_neg (Ne.symm hkey)] at hflows
      rw [dif_neg hkey, Option.toList_none, List.append_nil]
      split
      · rfl
      · next hkept =>
        rw [if_neg hkept] at hflows
        exact h.absent key c hflows

/-- A step that posts no update, and leaves the entries as they are. -/
theorem HoldsFrames.of_same (h : HoldsFrames s) (hflows : s'.maps.flows = s.maps.flows)
    (hlog : ∀ key c, framesSince s'.log key c = framesSince s.log key c) : HoldsFrames s' := by
  constructor
  · intro key c
    unfold PacketSystem.slotAt
    rw [hlog, hflows]
    exact h.slot key c
  · intro key c hnone
    rw [hflows] at hnone
    rw [hlog]
    exact h.absent key c hnone

theorem HoldsFrames.step (h : HoldsFrames s) (hstep : PacketSystem.Step writes s s') :
    HoldsFrames s' := by
  have hpost (event : PacketEvent Cpu) (hevicted : event.evictedKeys = [])
      (hframe : ∀ key c, event.frame? key c = none) (key : AbiFlowKey) (c : Cpu) :
      framesSince (s.log ++ [event]) key c = framesSince s.log key c := by
    rw [PacketSystem.framesSince_append]
    unfold PacketEvent.framesAfter
    rw [hevicted, hframe, if_neg List.not_mem_nil, Option.toList_none, List.append_nil]
  cases hstep with
  | @arrive cpu skb direction observed hidle =>
    cases hp : parse (bpfCursor skb.data) with
    | ok packet =>
      rw [PacketSystem.arrive_ok hp]
      exact h.of_same rfl (hpost _ rfl fun _ _ => rfl)
    | error unparsed =>
      rw [PacketSystem.arrive_error hp]
      refine h.of_same ?_ (hpost _ rfl fun _ _ => rfl)
      change (ite _ _ _ : KernelMaps Cpu).flows = _
      split <;> rfl
  | @select cpu run hparsed =>
    unfold PacketSystem.select
    split <;> exact h.of_same rfl fun _ _ => rfl
  | @enforce cpu run rule now hselected =>
    refine h.of_same ?_ (hpost _ rfl fun _ _ => rfl)
    change (s.maps.enforceOn cpu rule run.direction run.skb.len now).2.flows = _
    rfl
  | shoot hdropped => exact h.of_same rfl (hpost _ rfl fun _ _ => rfl)
  | account room hpassed => exact h.account
  | write policy hwrites => exact h.of_same rfl fun _ _ => rfl
  | own owners => exact h.of_same rfl fun _ _ => rfl

theorem PacketSystem.Fresh.holdsFrames {policy : PolicyMaps} (h : PacketSystem.Fresh policy s) :
    HoldsFrames s := by
  constructor
  · intro key c
    unfold PacketSystem.slotAt
    rw [h.log, h.flows]
    exact slotOf_nil
  · intro key c _
    rw [h.log]
    rfl

theorem holdsFrames_of_reachable {policy : PolicyMaps}
    (hr : (packetProgram Cpu policy writes).Reachable s) : HoldsFrames s :=
  hr.invariant (fun _ hinit => hinit.holdsFrames) fun _ _ h hstep => h.step hstep

/-- At any moment, whatever happened on the other CPUs: a key that is not in the Flow map has no
frames since its last eviction, and the value that a key has for a CPU is the default, or says
what the frames carried that the CPU has recorded under the key since then; it is marked exactly
if one of them had payload. -/
theorem flow_entries_hold_frames {policy : PolicyMaps}
    (hr : (packetProgram Cpu policy writes).Reachable s) (key : AbiFlowKey) :
    match s.maps.flows key with
    | none => ∀ cpu, framesSince s.log key cpu = []
    | some slots => ∀ cpu,
      ((framesSince s.log key cpu = [] ∧ slots cpu = {}) ∨
        Accumulated (framesSince s.log key cpu) (slots cpu).toFlowEntry) ∧
      ((slots cpu).serviceFlags &&& serviceSampledFlag ≠ 0 ↔
        ∃ frame ∈ framesSince s.log key cpu, frame.hasPayload) := by
  have h := holdsFrames_of_reachable hr
  split
  · next hflows =>
    intro cpu
    exact h.absent key cpu hflows
  · next slots hflows =>
    intro cpu
    have hslot := h.slot key cpu
    unfold PacketSystem.slotAt at hslot
    rw [hflows, Option.map_some, Option.getD_some] at hslot
    obtain ⟨hentry, hflags⟩ := hslot
    constructor
    · cases hframes : framesSince s.log key cpu with
      | nil =>
        left
        rw [hframes] at hentry hflags
        exact ⟨rfl, congrArg₂ FlowSlot.mk hentry hflags⟩
      | cons first rest =>
        right
        rw [hframes] at hentry
        rw [hentry]
        exact accumulated_flowEntry first rest
    · rw [hflags, ← List.any_eq_true]
      cases (framesSince s.log key cpu).any FlowFrame.hasPayload <;> decide

end Step

theorem datagram_entry_holds_frame :
    ∃ s, (packetProgram Bool .empty fun _ _ => False).Reachable s ∧
      ∃ slots, s.maps.flows datagramKey = some slots ∧ (slots true).packets = 1 ∧
        ((framesSince s.log datagramKey true = [] ∧ slots true = {}) ∨
          Accumulated (framesSince s.log datagramKey true) (slots true).toFlowEntry) := by
  obtain ⟨s, hr, hmaps⟩ := exists_afterDatagram
  have hpackets : (afterDatagram.flows datagramKey).map (fun slots => (slots true).packets) = some 1 := by
    decide +kernel
  obtain ⟨slots, hslots, hone⟩ := Option.map_eq_some_iff.mp hpackets
  rw [← hmaps] at hslots
  have hheld := flow_entries_hold_frames hr datagramKey
  rw [hslots] at hheld
  exact ⟨s, hr, slots, hslots, hone, (hheld true).1⟩

end ZimaScope
