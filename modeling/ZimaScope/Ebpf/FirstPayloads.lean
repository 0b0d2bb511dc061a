import ZimaScope.Ebpf.FlowEntries

/-! # First payloads

Which packets are sampled for protocol fingerprinting, over whole runs: on each CPU the first
packet with payload of each Flow entry, and what the rings hold are the samples that found room.
-/

namespace ZimaScope

open History

section Samples

variable {Cpu : Type} [DecidableEq Cpu] {s s' : PacketSystem Cpu} {policy : PolicyMaps}
  {writes : PolicyMaps → PolicyMaps → Prop}

/-- A packet is sampled if it is the first with payload that its CPU records in the entry, and the
sample is the start of its payload. -/
def SampleDue (before : List (PacketEvent Cpu)) : PacketEvent Cpu → Prop
  | .accounted cpu run _ _ service _ =>
    (service.attempted ↔ run.frame.hasPayload ∧
        ∀ frame ∈ framesSince before run.key cpu, ¬ frame.hasPayload) ∧
      ∀ sample, service = .emitted sample → sample = run.serviceSample
  | _ => True

/-- The samples of the log, each due, are those that the rings hold. -/
structure SampledFirst (s : PacketSystem Cpu) : Prop where
  holds : HoldsFrames s
  due : AtEach SampleDue s.log
  service : s.maps.serviceEvents = s.log.filterMap PacketEvent.serviceSample?
  domain : s.maps.domainEvents = s.log.filterMap PacketEvent.domainSample?

/-- A step that samples nothing. -/
theorem SampledFirst.post (h : SampledFirst s) (hholds : HoldsFrames s') {event : PacketEvent Cpu}
    (hlog : s'.log = s.log ++ [event]) (hdue : SampleDue s.log event)
    (hservice : s'.maps.serviceEvents = s.maps.serviceEvents ++ event.serviceSample?.toList)
    (hdomain : s'.maps.domainEvents = s.maps.domainEvents ++ event.domainSample?.toList) :
    SampledFirst s' where
  holds := hholds
  due := by
    rw [hlog, atEach_concat_iff]
    exact ⟨h.due, hdue⟩
  service := by rw [hlog, filterMap_concat, ← h.service, hservice]
  domain := by rw [hlog, filterMap_concat, ← h.domain, hdomain]

theorem SampledFirst.of_same (h : SampledFirst s) (hholds : HoldsFrames s') (hlog : s'.log = s.log)
    (hservice : s'.maps.serviceEvents = s.maps.serviceEvents)
    (hdomain : s'.maps.domainEvents = s.maps.domainEvents) : SampledFirst s' where
  holds := hholds
  due := by
    rw [hlog]
    exact h.due
  service := by rw [hlog, hservice, h.service]
  domain := by rw [hlog, hdomain, h.domain]

theorem SampledFirst.account (h : SampledFirst s) (cpu : Cpu) (run : PacketRun) (room : Room) :
    SampledFirst (s.account cpu run room) := by
  obtain ⟨-, hattempted, hsample⟩ := h.holds.sampledSlot cpu run room
  obtain ⟨-, hservice⟩ := PacketSystem.updateFlow_eq s cpu run room
  refine h.post h.holds.account PacketSystem.log_account ⟨?_, hsample⟩ ?_ ?_
  · rw [hattempted, Bool.and_eq_true, Bool.not_eq_true', List.any_eq_false, and_comm]
  · change (s.maps.account cpu run.skb run.direction run.packet run.observed room).serviceEvents = _
    rw [KernelMaps.account_eq]
    change _ ++ (s.maps.updateFlow cpu run.skb run.key run.packet run.observed room).2.1.sample?.toList
      = _
    rw [hservice]
    rfl
  · change (s.maps.account cpu run.skb run.direction run.packet run.observed room).domainEvents = _
    rw [KernelMaps.account_eq]
    unfold PacketEvent.domainSample? PacketSystem.domainSampled
    rw [← (PacketSystem.updateFlow_eq s cpu run room).1]
    rfl

theorem SampledFirst.step (h : SampledFirst s) (hstep : PacketSystem.Step writes s s') :
    SampledFirst s' := by
  have hholds := h.holds.step hstep
  cases hstep with
  | @arrive cpu skb direction observed hidle =>
    cases hp : parse (bpfCursor skb.data) with
    | ok packet =>
      rw [PacketSystem.arrive_ok hp] at hholds ⊢
      exact h.post hholds rfl trivial (List.append_nil _).symm (List.append_nil _).symm
    | error unparsed =>
      rw [PacketSystem.arrive_error hp] at hholds ⊢
      refine h.post hholds rfl trivial ?_ ?_
      · change (ite _ _ _ : KernelMaps Cpu).serviceEvents = _ ++ []
        rw [List.append_nil]
        split <;> rfl
      · change (ite _ _ _ : KernelMaps Cpu).domainEvents = _ ++ []
        rw [List.append_nil]
        split <;> rfl
  | @select cpu run hparsed =>
    unfold PacketSystem.select at hholds ⊢
    split at hholds <;> exact h.of_same hholds rfl rfl rfl
  | enforce now hselected =>
    exact h.post hholds rfl trivial (List.append_nil _).symm (List.append_nil _).symm
  | shoot hdropped =>
    exact h.post hholds rfl trivial (List.append_nil _).symm (List.append_nil _).symm
  | account room hpassed => exact h.account _ _ room
  | write policy hwrites => exact h.of_same hholds rfl rfl rfl
  | own owners => exact h.of_same hholds rfl rfl rfl

theorem PacketSystem.Fresh.sampledFirst (h : PacketSystem.Fresh policy s) : SampledFirst s where
  holds := h.holdsFrames
  due := by
    rw [h.log]
    exact atEach_nil
  service := by
    rw [h.log, h.serviceEvents]
    rfl
  domain := by
    rw [h.log, h.domainEvents]
    rfl

/-- An entry that has a frame with payload keeps it until its key is evicted. -/
theorem mem_framesSince_of_kept {log events : List (PacketEvent Cpu)} {key : AbiFlowKey} {cpu : Cpu}
    {frame : FlowFrame key} (hmem : frame ∈ framesSince log key cpu)
    (hkept : ∀ event ∈ events, key ∉ event.evictedKeys) :
    frame ∈ framesSince (log ++ events) key cpu := by
  unfold framesSince at *
  rw [List.foldl_append]
  refine mem_foldl_of_kept hmem fun event hevent frames hframe => ?_
  unfold PacketEvent.framesAfter
  rw [if_neg (hkept event hevent)]
  exact List.mem_append_left _ hframe

/-- A packet is sampled for fingerprinting exactly if it has payload and its CPU has recorded none
under its key since the key was last evicted; the sample is the start of that payload. The service
ring has taken the samples that found room, in order, and nothing else. So once a CPU has recorded
a packet with payload, no other packet of that key is sampled there before the key is evicted. -/
theorem service_samples_first_payload
    (hr : (packetProgram Cpu policy writes).Reachable s) :
    AtEach SampleDue s.log ∧
      s.maps.serviceEvents = s.log.filterMap PacketEvent.serviceSample? ∧
      ∀ before between after cpu run evicted service domain run' recorded' evicted' service' domain',
        s.log = before ++ .accounted cpu run true evicted service domain :: between ++
          .accounted cpu run' recorded' evicted' service' domain' :: after →
        run'.key = run.key → run.frame.hasPayload → service'.attempted →
        ∃ event ∈ between, run.key ∈ event.evictedKeys := by
  have h : SampledFirst s :=
    hr.invariant (fun _ hinit => hinit.sampledFirst) fun _ _ h hstep => h.step hstep
  refine ⟨h.due, h.service, ?_⟩
  intro before between after cpu run evicted service domain run' recorded' evicted' service' domain'
    hlog hkey hpayload hattempted
  by_contra hkept
  obtain ⟨-, hdue⟩ := (h.due _ _ _ hlog).1.mp hattempted
  have hframe : run.frame ∈ framesSince
      (before ++ [.accounted cpu run true evicted service domain]) run.key cpu := by
    rw [PacketSystem.framesSince_append]
    refine List.mem_append_right _ ?_
    change run.frame ∈ (if h : run.key = run.key then _ else none : Option _).toList
    rw [dif_pos rfl, if_pos ⟨rfl, rfl⟩]
    exact List.mem_singleton_self _
  have hmem : run.frame ∈ framesSince
      (before ++ .accounted cpu run true evicted service domain :: between) run.key cpu := by
    rw [List.append_cons]
    refine mem_framesSince_of_kept hframe fun event hevent hevicted => ?_
    exact hkept ⟨event, hevent, hevicted⟩
  rw [hkey] at hdue
  exact hdue run.frame hmem hpayload

end Samples

theorem datagram_sampled :
    ∃ s, (packetProgram Bool .empty fun _ _ => False).Reachable s ∧ AtEach SampleDue s.log ∧
      s.maps.serviceEvents.length = 1 ∧
        s.maps.serviceEvents = s.log.filterMap PacketEvent.serviceSample? := by
  obtain ⟨s, hr, hmaps⟩ := exists_afterDatagram
  obtain ⟨hdue, hring, -⟩ := service_samples_first_payload hr
  have hone : afterDatagram.serviceEvents.length = 1 := by decide +kernel
  rw [← hmaps] at hone
  exact ⟨s, hr, hdue, hone, hring⟩

end ZimaScope
