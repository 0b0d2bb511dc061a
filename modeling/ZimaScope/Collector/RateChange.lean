import ZimaScope.Collector.Apply
import ZimaScope.Ebpf.Limit

/-! # Rate changes

Changing the parameters of a rule reads its whole state and writes the whole
state back, in two system calls. Each call and each packet holds the lock, the
two calls together do not: packets enforced between them are written over.
-/

namespace ZimaScope

/-- What happens to one rule state: packets, and the two calls of a rate change. -/
inductive StateEvent
  | enforce (rule : RuleRef) (packet : EnforcedPacket)
  | read
  | write

/-- The number a verdict counts as dropped. -/
def Verdict.dropped (n : ℕ) : Verdict → ℕ
  | .pass => 0
  | .drop => n

/-- What the enforced packets did, as they saw it. -/
structure Account where
  matchedPackets : ℕ := 0
  matchedBytes : ℕ := 0
  droppedPackets : ℕ := 0
  droppedBytes : ℕ := 0
  spentTokens : ℕ := 0
  earnedTokens : ℕ := 0

def Account.record (account : Account) (before : RuleState) (packet : EnforcedPacket)
    (verdict : Verdict) : Account where
  matchedPackets := account.matchedPackets + 1
  matchedBytes := account.matchedBytes + packet.cost
  droppedPackets := account.droppedPackets + verdict.dropped 1
  droppedBytes := account.droppedBytes + verdict.dropped packet.cost
  spentTokens := account.spentTokens + verdict.bytes packet.cost
  earnedTokens := account.earnedTokens + ((refill before packet.now).tokens - before.tokens)

/-- The state in the kernel, the copy user space has read, and the account. -/
structure SharedState where
  state : RuleState
  copy : Option RuleState := none
  account : Account := {}

namespace SharedState

variable (rate burst : ℕ)

def step (w : SharedState) : StateEvent → SharedState
  | .enforce rule packet =>
    let (verdict, state) := enforceLocked rule packet.cost packet.now w.state
    { w with state, account := w.account.record w.state packet verdict }
  | .read => { w with copy := some w.state }
  | .write => { w with state := upsertedState w.copy rate burst }

def run (w : SharedState) (events : List StateEvent) : SharedState := events.foldl (step rate burst) w

end SharedState

abbrev Traffic := List (RuleRef × EnforcedPacket)

def Traffic.events (traffic : Traffic) : List StateEvent := traffic.map fun p => .enforce p.1 p.2

def Traffic.bytes (traffic : Traffic) : ℕ := (traffic.map fun p => p.2.cost).sum

/-- A rate change with packets before, between and after its two calls. -/
def rateChange (before between after : Traffic) : List StateEvent :=
  before.events ++ .read :: (between.events ++ .write :: after.events)

/-- Nothing a packet did is undone: the counters have gone up by what the
packets counted, and the tokens left and spent were there or have been earned. -/
structure Preserved (start : RuleState) (w : SharedState) : Prop where
  matchedPackets : w.state.matchedPackets = start.matchedPackets + w.account.matchedPackets
  matchedBytes : w.state.matchedBytes = start.matchedBytes + w.account.matchedBytes
  droppedPackets : w.state.droppedPackets = start.droppedPackets + w.account.droppedPackets
  droppedBytes : w.state.droppedBytes = start.droppedBytes + w.account.droppedBytes
  tokens : w.state.tokens + w.account.spentTokens ≤ start.tokens + w.account.earnedTokens

/-- Counters of a rule state are `u64` and count a dropped packet as a matched one. -/
structure CountersSound (state : RuleState) : Prop where
  packets_le : state.matchedPackets ≤ u64Max
  bytes_le : state.matchedBytes ≤ u64Max
  dropped_packets_le : state.droppedPackets ≤ state.matchedPackets
  dropped_bytes_le : state.droppedBytes ≤ state.matchedBytes

/-- No more packets or bytes are dropped than matched. -/
structure Account.Sound (account : Account) : Prop where
  packets_le : account.droppedPackets ≤ account.matchedPackets
  bytes_le : account.droppedBytes ≤ account.matchedBytes

section Packet

variable {state : RuleState}

theorem satAdd_of_le {a b : ℕ} (h : a + b ≤ u64Max) : satAdd a b = a + b := min_eq_left h

theorem satAdd_le {a b : ℕ} : satAdd a b ≤ a + b := min_le_left _ _

theorem counters_refill (state : RuleState) (now : ℕ) :
    (refill state now).matchedPackets = state.matchedPackets ∧
      (refill state now).matchedBytes = state.matchedBytes ∧
      (refill state now).droppedPackets = state.droppedPackets ∧
      (refill state now).droppedBytes = state.droppedBytes := by
  simp only [refill]
  split <;> exact ⟨rfl, rfl, rfl, rfl⟩

/-- What a packet does to the counters and the tokens. -/
theorem enforceLocked_counters (rule : RuleRef) (packet : EnforcedPacket) (state : RuleState) :
    let (verdict, after) := enforceLocked rule packet.cost packet.now state
    after.matchedPackets = satAdd state.matchedPackets 1 ∧
      after.matchedBytes = satAdd state.matchedBytes packet.cost ∧
      (state.droppedPackets + verdict.dropped 1 ≤ u64Max →
        after.droppedPackets = state.droppedPackets + verdict.dropped 1) ∧
      (state.droppedBytes + verdict.dropped packet.cost ≤ u64Max →
        after.droppedBytes = state.droppedBytes + verdict.dropped packet.cost) ∧
      after.tokens + verdict.bytes packet.cost = (refill state packet.now).tokens := by
  obtain ⟨hp, hb, hdp, hdb⟩ := counters_refill state packet.now
  unfold enforceLocked
  simp only
  split
  · simp only [dropPacket, hp, hb, hdp, hdb, Verdict.dropped, Verdict.bytes]
    exact ⟨trivial, trivial, satAdd_of_le, satAdd_of_le, Nat.add_zero _⟩
  · split
    · next ht =>
      simp only [hp, hb, hdp, hdb, Verdict.dropped, Verdict.bytes]
      exact ⟨trivial, trivial, fun _ => rfl, fun _ => rfl, Nat.sub_add_cancel ht⟩
    · simp only [dropPacket, hp, hb, hdp, hdb, Verdict.dropped, Verdict.bytes]
      exact ⟨trivial, trivial, satAdd_of_le, satAdd_of_le, Nat.add_zero _⟩

end Packet

section Run

variable {rate burst : ℕ} {start : RuleState} {w : SharedState}

@[simp] theorem run_append (w : SharedState) (es es' : List StateEvent) :
    w.run rate burst (es ++ es') = (w.run rate burst es).run rate burst es' :=
  List.foldl_append

theorem run_cons (w : SharedState) (e : StateEvent) (es : List StateEvent) :
    w.run rate burst (e :: es) = (w.step rate burst e).run rate burst es := rfl

theorem run_events_cons (w : SharedState) (p : RuleRef × EnforcedPacket) (traffic : Traffic) :
    w.run rate burst (Traffic.events (p :: traffic)) =
      (w.step rate burst (.enforce p.1 p.2)).run rate burst traffic.events := rfl

@[simp] theorem Traffic.bytes_cons (p : RuleRef × EnforcedPacket) (traffic : Traffic) :
    Traffic.bytes (p :: traffic) = p.2.cost + Traffic.bytes traffic := rfl

theorem account_events (rate burst : ℕ) (w : SharedState) (traffic : Traffic) :
    (w.run rate burst traffic.events).account.matchedPackets =
        w.account.matchedPackets + traffic.length ∧
      (w.run rate burst traffic.events).account.matchedBytes =
        w.account.matchedBytes + traffic.bytes := by
  induction traffic generalizing w with
  | nil => exact ⟨rfl, rfl⟩
  | cons p traffic ih =>
    obtain ⟨hp, hb⟩ := ih (w.step rate burst (.enforce p.1 p.2))
    have hstep : (w.step rate burst (.enforce p.1 p.2)).account.matchedPackets =
        w.account.matchedPackets + 1 ∧
        (w.step rate burst (.enforce p.1 p.2)).account.matchedBytes =
          w.account.matchedBytes + p.2.cost := ⟨rfl, rfl⟩
    rw [hstep.1] at hp
    rw [hstep.2] at hb
    rw [run_events_cons, hp, hb, Traffic.bytes_cons, List.length_cons]
    omega

theorem Account.Sound.record {account : Account} (h : account.Sound) (before : RuleState)
    (packet : EnforcedPacket) (verdict : Verdict) :
    (account.record before packet verdict).Sound := by
  obtain ⟨hp, hb⟩ := h
  constructor
  · cases verdict <;> simp only [Account.record, Verdict.dropped] <;> omega
  · cases verdict <;> simp only [Account.record, Verdict.dropped] <;> omega

theorem sound_events (h : w.account.Sound) (traffic : Traffic) :
    (w.run rate burst traffic.events).account.Sound := by
  induction traffic generalizing w with
  | nil => exact h
  | cons p traffic ih => exact ih (h.record _ _ _)

/-- A packet whose counts fit keeps what all packets before it did. -/
theorem Preserved.enforce (h : Preserved start w) (hs : CountersSound start)
    (ha : w.account.Sound) (rate burst : ℕ) (rule : RuleRef) (packet : EnforcedPacket)
    (hpackets : start.matchedPackets + (w.account.matchedPackets + 1) ≤ u64Max)
    (hbytes : start.matchedBytes + (w.account.matchedBytes + packet.cost) ≤ u64Max) :
    Preserved start (w.step rate burst (.enforce rule packet)) := by
  have hc := enforceLocked_counters rule packet w.state
  generalize hv : enforceLocked rule packet.cost packet.now w.state = result at hc
  obtain ⟨verdict, after⟩ := result
  obtain ⟨hmp, hmb, hdp, hdb, ht⟩ := hc
  have hstep : w.step rate burst (.enforce rule packet) =
      { w with state := after, account := w.account.record w.state packet verdict } := by
    simp only [SharedState.step, hv]
  have hdrop : verdict.dropped 1 ≤ 1 ∧ verdict.dropped packet.cost ≤ packet.cost := by
    cases verdict <;> simp [Verdict.dropped]
  have hsp := hs.dropped_packets_le
  have hsb := hs.dropped_bytes_le
  obtain ⟨hp, hb⟩ := ha
  rw [hstep]
  constructor
  · rw [hmp, h.matchedPackets, satAdd_of_le (by omega)]
    exact Nat.add_assoc _ _ _
  · rw [hmb, h.matchedBytes, satAdd_of_le (by omega)]
    exact Nat.add_assoc _ _ _
  · rw [hdp (by rw [h.droppedPackets]; omega), h.droppedPackets]
    exact Nat.add_assoc _ _ _
  · rw [hdb (by rw [h.droppedBytes]; omega), h.droppedBytes]
    exact Nat.add_assoc _ _ _
  · have htokens := h.tokens
    simp only [Account.record]
    omega

/-- Packets whose counts fit keep what all packets before them did. -/
theorem Preserved.events (h : Preserved start w) (hs : CountersSound start)
    (ha : w.account.Sound) (traffic : Traffic)
    (hpackets : start.matchedPackets + (w.account.matchedPackets + traffic.length) ≤ u64Max)
    (hbytes : start.matchedBytes + (w.account.matchedBytes + Traffic.bytes traffic) ≤ u64Max) :
    Preserved start (w.run rate burst traffic.events) := by
  induction traffic generalizing w with
  | nil => exact h
  | cons p traffic ih =>
    rw [List.length_cons] at hpackets
    rw [Traffic.bytes_cons] at hbytes
    have hstep := h.enforce hs ha rate burst p.1 p.2 (by omega) (by omega)
    apply ih hstep (ha.record _ _ _)
    · change start.matchedPackets + (w.account.matchedPackets + 1 + traffic.length) ≤ u64Max
      omega
    · change start.matchedBytes +
        (w.account.matchedBytes + p.2.cost + Traffic.bytes traffic) ≤ u64Max
      omega

/-- Reading and writing back with nothing in between keeps everything. -/
theorem Preserved.read_write (h : Preserved start w) (rate burst : ℕ) :
    Preserved start (w.run rate burst [.read, .write]) :=
  ⟨h.matchedPackets, h.matchedBytes, h.droppedPackets, h.droppedBytes, h.tokens⟩

theorem copy_events (w : SharedState) (traffic : Traffic) :
    (w.run rate burst traffic.events).copy = w.copy := by
  induction traffic generalizing w with
  | nil => rfl
  | cons p traffic ih => exact ih _

theorem matched_events_le (rate burst : ℕ) (w : SharedState) (traffic : Traffic) :
    (w.run rate burst traffic.events).state.matchedPackets ≤
        w.state.matchedPackets + traffic.length ∧
      (w.state.matchedPackets ≤ u64Max →
        (w.run rate burst traffic.events).state.matchedPackets ≤ u64Max) ∧
      (w.state.matchedBytes ≤ u64Max →
        (w.run rate burst traffic.events).state.matchedBytes ≤ u64Max) := by
  induction traffic generalizing w with
  | nil => exact ⟨le_rfl, id, id⟩
  | cons p traffic ih =>
    obtain ⟨hlen, hp, hb⟩ := ih (w.step rate burst (.enforce p.1 p.2))
    obtain ⟨hmp, hmb, _⟩ := enforceLocked_counters p.1 p.2 w.state
    have hmp' : (w.step rate burst (.enforce p.1 p.2)).state.matchedPackets =
        satAdd w.state.matchedPackets 1 := hmp
    have hmb' : (w.step rate burst (.enforce p.1 p.2)).state.matchedBytes =
        satAdd w.state.matchedBytes p.2.cost := hmb
    rw [hmp'] at hlen hp
    rw [hmb'] at hb
    rw [run_events_cons, List.length_cons]
    have hsat : satAdd w.state.matchedPackets 1 ≤ w.state.matchedPackets + 1 := satAdd_le
    exact ⟨by omega, fun _ => hp (min_le_right _ _), fun _ => hb (min_le_right _ _)⟩

end Run

section RateChange

variable (rate burst : ℕ) (before between after : Traffic)

/-- The packets account for themselves whatever user space does. -/
theorem account_rateChange (w : SharedState) :
    (w.run rate burst (rateChange before between after)).account.matchedPackets =
        w.account.matchedPackets + before.length + between.length + after.length ∧
      (w.run rate burst (rateChange before between after)).account.matchedBytes =
        w.account.matchedBytes + Traffic.bytes before + Traffic.bytes between +
          Traffic.bytes after := by
  have hcall : ∀ w : SharedState, (w.step rate burst .read).account = w.account ∧
      (w.step rate burst .write).account = w.account := fun _ => ⟨rfl, rfl⟩
  simp only [rateChange, run_append, run_cons]
  constructor
  · rw [(account_events _ _ _ _).1, (hcall _).2, (account_events _ _ _ _).1, (hcall _).1,
      (account_events _ _ _ _).1]
  · rw [(account_events _ _ _ _).2, (hcall _).2, (account_events _ _ _ _).2, (hcall _).1,
      (account_events _ _ _ _).2]

/-- The write puts back the counters of the state that was read. -/
theorem counters_write (w : SharedState) :
    let written := ((w.step rate burst .read).run rate burst between.events).step rate burst .write
    written.state.matchedPackets = w.state.matchedPackets ∧
      written.state.matchedBytes = w.state.matchedBytes := by
  have hcopy : ((w.step rate burst .read).run rate burst between.events).copy = some w.state :=
    copy_events _ _
  simp only [SharedState.step] at hcopy ⊢
  rw [hcopy]
  exact ⟨rfl, rfl⟩

/-- What is enforced between the two calls is not in the counters. -/
theorem matched_rateChange_le (w : SharedState) (hs : CountersSound w.state) :
    (w.run rate burst (rateChange before between after)).state.matchedPackets ≤
        w.state.matchedPackets + before.length + after.length ∧
      (w.run rate burst (rateChange before between after)).state.matchedPackets ≤ u64Max ∧
      (w.run rate burst (rateChange before between after)).state.matchedBytes ≤ u64Max := by
  obtain ⟨hlen, hp, hb⟩ := matched_events_le rate burst w before
  have hwrite := counters_write rate burst between (w.run rate burst before.events)
  simp only [rateChange, run_append, run_cons]
  generalize ((w.run rate burst before.events).step rate burst .read |>.run rate burst
    between.events).step rate burst .write = written at hwrite ⊢
  obtain ⟨hpackets, hbytes⟩ := hwrite
  obtain ⟨hlen', hp', hb'⟩ := matched_events_le rate burst written after
  rw [hpackets] at hlen' hp'
  rw [hbytes] at hb'
  exact ⟨by omega, hp' (hp hs.packets_le), hb' (hb hs.bytes_le)⟩

/-- A rate change preserves what the packets did exactly when no packet is
enforced between its two calls (and the counts fit their counters). -/
theorem rateChange_preserves_iff {start : RuleState} (hs : CountersSound start) :
    Preserved start
        (SharedState.run rate burst { state := start } (rateChange before between after)) ↔
      between = [] ∧ start.matchedPackets + (before ++ after).length ≤ u64Max ∧
        start.matchedBytes + Traffic.bytes (before ++ after) ≤ u64Max := by
  have hbytes : Traffic.bytes (before ++ after) = Traffic.bytes before + Traffic.bytes after := by
    simp [Traffic.bytes]
  rw [hbytes, List.length_append]
  constructor
  · intro h
    have hp := h.matchedPackets
    have hb := h.matchedBytes
    obtain ⟨hcount, hfitp, hfitb⟩ := matched_rateChange_le rate burst before between after
      { state := start } hs
    obtain ⟨hap, hab⟩ := account_rateChange rate burst before between after { state := start }
    rw [hap] at hp
    rw [hab] at hb
    simp only [Nat.zero_add] at hcount hp hb
    have hnone : between = [] := List.eq_nil_of_length_eq_zero (by omega)
    subst hnone
    have hzero : Traffic.bytes [] = 0 := rfl
    simp only [List.length_nil] at hp
    exact ⟨rfl, by omega, by omega⟩
  · rintro ⟨rfl, hp, hb⟩
    have hstart : Preserved start { state := start } := ⟨rfl, rfl, rfl, rfl, le_rfl⟩
    have hsound : Account.Sound {} := ⟨le_rfl, le_rfl⟩
    have hbefore : Preserved start (SharedState.run rate burst { state := start } before.events) := by
      apply hstart.events hs hsound before
      · simp only [Nat.zero_add]
        omega
      · simp only [Nat.zero_add]
        omega
    obtain ⟨hap, hab⟩ := account_events rate burst { state := start } before
    simp only [rateChange, run_append, run_cons]
    refine Preserved.events (hbefore.read_write rate burst) hs
      (sound_events hsound before) after ?_ ?_
    · change start.matchedPackets + ((SharedState.run rate burst { state := start }
        before.events).account.matchedPackets + after.length) ≤ u64Max
      rw [hap]
      simp only [Nat.zero_add]
      omega
    · change start.matchedBytes + ((SharedState.run rate burst { state := start }
        before.events).account.matchedBytes + Traffic.bytes after) ≤ u64Max
      rw [hab]
      simp only [Nat.zero_add]
      omega

end RateChange

section Maps

variable {maps maps' : PolicyMaps} {key : BucketKey} {state : RuleState} {rate burst : ℕ}

/-- The worker's operation is the two calls with nothing in between. -/
theorem lookup_upsertState (h : maps.states.lookup key = some state)
    (hop : applyPolicyOp maps (.upsertState key rate burst) = .ok maps') :
    maps'.states.lookup key =
      some (SharedState.run rate burst { state } [.read, .write]).state := by
  obtain ⟨_, rfl⟩ := applyPolicyOp_ok_iff.mp hop
  rw [PolicyMaps.effect, Finmap.lookup_insert, h]
  rfl

/-- A packet of the rule is one step on its state. -/
theorem lookup_enforce {rule : RuleRef} {direction : Direction} {stats : KernelStats}
    {packet : EnforcedPacket} (h : maps.states.lookup ⟨rule.ruleId, direction.toU8⟩ = some state) :
    (enforce maps stats rule direction packet.cost packet.now).2.1.states.lookup
        ⟨rule.ruleId, direction.toU8⟩ =
      some (SharedState.run rate burst { state } [.enforce rule packet]).state := by
  simp only [enforce, h]
  exact Finmap.lookup_insert _

end Maps

section Example

/-- A rate change without packets between its calls. -/
theorem rateChange_preserves_quiet :
    Preserved fullState (SharedState.run 8192 16384 { state := fullState }
      (rateChange [(⟨1, RuleAction.limit.toU8⟩, ⟨1000, 0⟩)] [] [])) :=
  (rateChange_preserves_iff 8192 16384 [(⟨1, RuleAction.limit.toU8⟩, ⟨1000, 0⟩)] [] []
    ⟨by decide, by decide, le_rfl, le_rfl⟩).mpr
    ⟨rfl, by decide, by decide⟩

/-- A packet between the two calls passes, is not counted, and gets its tokens back. -/
theorem rateChange_refunds_packet :
    let w := SharedState.run 8192 16384 { state := fullState }
      (rateChange [] [(⟨1, RuleAction.limit.toU8⟩, ⟨1000, 0⟩)] [])
    w.account.spentTokens = 1000 ∧ w.state.tokens = fullState.tokens ∧
      w.state.matchedPackets = 0 ∧ ¬ Preserved fullState w := by
  intro w
  refine ⟨by decide, by decide, by decide, fun h => ?_⟩
  exact absurd h.matchedPackets (by decide)

end Example

end ZimaScope
