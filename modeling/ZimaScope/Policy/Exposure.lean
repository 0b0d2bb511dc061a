import ZimaScope.Policy.Image

/-! # Exposure during a reconciliation

What packets select while a reconciliation is on its way. Between the old and
the new program a packet may come upon an entry that neither of them lets it
select. It does exactly when an operation takes away, or writes over, all the
more specific entries that shielded it.
-/

namespace ZimaScope

open Priority

/-- A packet with the owner evidence it meets. -/
structure Packet where
  owners : OwnerMaps
  flow : ParsedFlow
  direction : Direction

def PolicyMaps.selected (maps : PolicyMaps) (packet : Packet) : Option RuleRef :=
  selectRule maps packet.owners packet.flow packet.direction

def PolicyConfig.candidates (config : PolicyConfig) (packet : Packet) : List MatchCandidate :=
  ZimaScope.candidates config packet.owners packet.flow packet.direction

/-- A packet selects the reference from some image of the program. -/
def CompiledPolicy.Selects (policy : CompiledPolicy) (packet : Packet) (ref : RuleRef) : Prop :=
  ∃ maps, Image maps policy ∧ maps.selected packet = some ref

section Exposure

variable (before : PolicyMaps) (next : CompiledPolicy)

/-- Every packet selects nothing, or what it selected before, or what it
selects under the next program. -/
def FailOpen (maps : PolicyMaps) : Prop :=
  ∀ packet, maps.selected packet = none ∨ maps.selected packet = before.selected packet ∨
    ∃ after, Image after next ∧ maps.selected packet = after.selected packet

/-- Neither the old maps nor the next program let the packet select the reference. -/
def Stray (packet : Packet) (ref : RuleRef) : Prop :=
  before.selected packet ≠ some ref ∧ ¬ next.Selects packet ref

/-- The operation keeps the stray references of every packet behind a more
specific entry: a removal leaves another one above them, a write is itself not
stray where nothing is above it, and new tier flags let none through. -/
def OpShielded (maps : PolicyMaps) : PolicyOp → Prop
  | .setEnabled enabled appRules endpointRules revision => ∀ packet,
    Shielded (Stray before next packet) maps.matchAt
      ((configValue enabled appRules endpointRules revision).candidates packet)
  | .upsertMatch entry ref => ∀ packet higher c lower,
    maps.config.candidates packet = higher ++ c :: lower →
      (c.key ≠ entry.key ∧ ∃ a, answer maps.matchAt c = some a ∧ Stray before next packet a) ∨
        (c.key = entry.key ∧ c.accepts ref = true ∧ Stray before next packet ref) →
      ∃ h ∈ higher, (h.key ≠ entry.key ∧ (answer maps.matchAt h).isSome) ∨
        (h.key = entry.key ∧ h.accepts ref = true)
  | .removeMatch entry => ∀ packet higher c lower,
    maps.config.candidates packet = higher ++ c :: lower → c.key ≠ entry.key →
      ∀ a, answer maps.matchAt c = some a → Stray before next packet a →
        ∃ h ∈ higher, h.key ≠ entry.key ∧ (answer maps.matchAt h).isSome
  | .upsertState .. | .removeState _ => True

variable {before next}

theorem failOpen_iff_shielded {maps : PolicyMaps} :
    FailOpen before next maps ↔ ∀ packet,
      Shielded (Stray before next packet) maps.matchAt (maps.config.candidates packet) := by
  have hsel : ∀ packet, maps.selected packet =
      first maps.matchAt (maps.config.candidates packet) := fun packet => selectRule_eq_first
  simp only [shielded_iff, ← hsel, FailOpen]
  apply forall_congr'
  intro packet
  constructor
  · rintro h ref hr ⟨hold, hnew⟩
    rcases h with h | h | ⟨after, ha, h⟩
    · rw [hr] at h
      simp at h
    · exact hold (h ▸ hr)
    · exact hnew ⟨after, ha, h ▸ hr⟩
  · intro h
    cases hr : maps.selected packet with
    | none => exact Or.inl rfl
    | some ref =>
      right
      by_contra hn
      refine h ref hr ⟨fun hold => hn (Or.inl hold.symm), ?_⟩
      rintro ⟨after, ha, hnew⟩
      exact hn (Or.inr ⟨after, ha, hnew.symm⟩)

/-- A shielded operation is one that leaves every packet fail open. -/
theorem failOpen_effect_iff {maps : PolicyMaps} (h : FailOpen before next maps) (op : PolicyOp) :
    FailOpen before next (maps.effect op) ↔ OpShielded before next maps op := by
  rw [failOpen_iff_shielded]
  cases op with
  | setEnabled enabled appRules endpointRules revision =>
    rw [PolicyMaps.matchAt_effect_of_matchWrite_none rfl]
    rfl
  | upsertState key rate burst | removeState key =>
    rw [PolicyMaps.matchAt_effect_of_matchWrite_none rfl, config_effect rfl]
    exact iff_of_true (failOpen_iff_shielded.mp h) trivial
  | upsertMatch entry ref =>
    have hm : (maps.effect (.upsertMatch entry ref)).matchAt =
        Function.update maps.matchAt entry.key (some ref) := PolicyMaps.matchAt_putMatch _ _ _
    rw [hm, config_effect rfl]
    exact forall_congr' fun packet => shielded_write_iff
  | removeMatch entry =>
    have hm : (maps.effect (.removeMatch entry)).matchAt =
        Function.update maps.matchAt entry.key none := PolicyMaps.matchAt_delMatch _ _
    rw [hm, config_effect rfl]
    exact forall_congr' fun packet => shielded_clear_iff

end Exposure

theorem applyOps_append_singleton {maps maps'' : PolicyMaps} {ops : List PolicyOp}
    {op : PolicyOp} : applyOps maps (ops ++ [op]) = (.ok (), maps'') ↔
      ∃ maps', applyOps maps ops = (.ok (), maps') ∧ applyPolicyOp maps' op = .ok maps'' := by
  simp only [applyOps_ok_iff, applyPolicyOp_ok_iff, PolicyMaps.accepts_append,
    PolicyMaps.effects_append, PolicyMaps.effects_cons, PolicyMaps.effects_nil]
  constructor
  · rintro ⟨⟨ha, hb⟩, he⟩
    exact ⟨_, ⟨ha, rfl⟩, hb, he⟩
  · rintro ⟨_, ⟨ha, rfl⟩, hb, he⟩
    exact ⟨⟨ha, hb⟩, he⟩

/-- A limited address inside a blocked prefix, before and after its rule is
replaced by another one. -/
def replaceBefore : CheckedPolicy :=
  .ofResolved [⟨1, .limit 8192 16384, .outbound, [.endpoint (.new 203 0 113 1) none]⟩,
    ⟨2, .block, .outbound, [.cidr (.new 203 0 113 0) 24]⟩] (by decide) (by decide) (by decide)

def replaceAfter : CheckedPolicy :=
  .ofResolved [⟨2, .block, .outbound, [.cidr (.new 203 0 113 0) 24]⟩,
    ⟨3, .limit 8192 16384, .outbound, [.endpoint (.new 203 0 113 1) none]⟩]
    (by decide) (by decide) (by decide)

/-- A TCP packet to the limited address, from a process nothing is known of. -/
def limitedPacket : Packet where
  owners := ⟨fun _ => none, fun _ => none⟩
  flow := {
    srcAddr := ipv4Storage (.new 192 0 2 1)
    dstAddr := ipv4Storage (.new 203 0 113 1)
    srcPortBe := toBe 50000
    dstPortBe := toBe 443
    protocol := TransportProtocol.tcp.toU8
    ipFamily := IpFamily.v4.toU8 }
  direction := .outbound

def replaceMaps : PolicyMaps :=
  PolicyMaps.empty.effects (diff CheckedPolicy.initial replaceBefore)

end ZimaScope
