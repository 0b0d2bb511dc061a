import ZimaScope.Ebpf.Policy
import ZimaScope.Lib.TokenBucket
import ZimaScope.Policy.Compile

/-! # Limits

A limited rule state is a token bucket: its clock is `last_refill_mono_ns`, a
byte costs one token, and a nanosecond earns `rate / 10⁹` tokens. The clock is
read before the lock is taken, so readings may reach a state out of order.
-/

namespace ZimaScope

open TokenBucket (Bucket Arrival)

namespace RuleState

def bucket (state : RuleState) : Bucket := ⟨state.tokens, state.lastRefillMonoNs⟩

def bucketParams (state : RuleState) : TokenBucket.Params :=
  ⟨nsPerSecond, state.rateBytesPerS, state.burstBytes, refillCapNs⟩

end RuleState

/-- A packet of `cost` bytes, enforced with the clock reading `now`. -/
abbrev EnforcedPacket := Arrival

/-- Packets enforced one after the other on a rule state. -/
def enforceAll (rule : RuleRef) (state : RuleState) : List EnforcedPacket → RuleState
  | [] => state
  | packet :: packets =>
    enforceAll rule (enforceLocked rule packet.cost packet.now state).2 packets

/-- The bytes a verdict lets through. -/
def Verdict.bytes (packetLen : ℕ) : Verdict → ℕ
  | .pass => packetLen
  | .drop => 0

/-- The bytes of the packets that pass. -/
def passedBytes (rule : RuleRef) (state : RuleState) : List EnforcedPacket → ℕ
  | [] => 0
  | packet :: packets =>
    let (verdict, state) := enforceLocked rule packet.cost packet.now state
    verdict.bytes packet.cost + passedBytes rule state packets

/-- A state with validated parameters, whatever it holds. -/
structure LimitState (rate burst : ℕ) (state : RuleState) : Prop where
  valid : (ActionSpec.limit rate burst).validate = .ok ()
  burst_le : burst ≤ u64Max
  rate_eq : state.rateBytesPerS = rate
  burst_eq : state.burstBytes = burst

section Limit

variable {rate burst : ℕ} {state : RuleState} {rule : RuleRef}

theorem rate_of_validate (h : (ActionSpec.limit rate burst).validate = .ok ()) :
    minRateBytesPerS ≤ rate ∧ rate ≤ maxRateBytesPerS := by
  by_contra hr
  simp [ActionSpec.validate, hr] at h

/-- The product of a refill stays below the range of a `u64`. -/
theorem refill_product_lt (h : LimitState rate burst state) (now : ℕ) :
    min (now - state.lastRefillMonoNs) refillCapNs * state.rateBytesPerS < 2 ^ 64 := by
  have hrate := (rate_of_validate h.valid).2
  calc min (now - state.lastRefillMonoNs) refillCapNs * state.rateBytesPerS
      ≤ refillCapNs * maxRateBytesPerS := by
        rw [h.rate_eq]
        exact Nat.mul_le_mul (min_le_right _ _) hrate
    _ < 2 ^ 64 := by decide

/-- Under the validated parameters a refill is the refill of the bucket. -/
theorem bucket_refill (h : LimitState rate burst state) (now : ℕ) :
    (refill state now).bucket = TokenBucket.refill state.bucketParams state.bucket now := by
  have hadd : min (now - state.lastRefillMonoNs) refillCapNs * state.rateBytesPerS % 2 ^ 64 /
      nsPerSecond = TokenBucket.earned state.bucketParams state.bucket now := by
    rw [Nat.mod_eq_of_lt (refill_product_lt h now)]
    rfl
  have hsat : ∀ add, min (satAdd state.tokens add) state.burstBytes =
      min (state.tokens + add) state.burstBytes := by
    intro add
    have hb := h.burst_le
    rw [← h.burst_eq] at hb
    unfold satAdd
    omega
  unfold refill TokenBucket.refill
  simp only [hadd, hsat]
  split <;> rfl

theorem bucketParams_enforceLocked (rule : RuleRef) (packet : EnforcedPacket)
    (state : RuleState) :
    (enforceLocked rule packet.cost packet.now state).2.bucketParams = state.bucketParams := by
  obtain ⟨hr, hb⟩ := params_enforceLocked rule packet.cost packet.now state
  rw [RuleState.bucketParams, hr, hb]
  rfl

/-- A packet of a limiting rule is an arrival at the bucket. -/
theorem enforceLocked_limit (h : LimitState rate burst state) (packet : EnforcedPacket)
    (hl : rule.action = RuleAction.limit.toU8) :
    (enforceLocked rule packet.cost packet.now state).2.bucket =
        TokenBucket.step state.bucketParams state.bucket packet ∧
      (enforceLocked rule packet.cost packet.now state).1.bytes packet.cost =
        TokenBucket.granted state.bucketParams state.bucket packet := by
  rw [TokenBucket.step, TokenBucket.granted, ← bucket_refill h]
  have hb : rule.action ≠ RuleAction.block.toU8 := by
    rw [hl]
    decide
  by_cases hp : packet.cost ≤ (refill state packet.now).tokens
  · simp [enforceLocked, hb, hp, TokenBucket.spend, RuleState.bucket, Verdict.bytes]
  · simp [enforceLocked, hb, hp, TokenBucket.spend, RuleState.bucket, Verdict.bytes, dropPacket]

theorem LimitState.step (h : LimitState rate burst state) (rule : RuleRef)
    (packet : EnforcedPacket) :
    LimitState rate burst (enforceLocked rule packet.cost packet.now state).2 := by
  obtain ⟨hr, hb⟩ := params_enforceLocked rule packet.cost packet.now state
  exact ⟨h.valid, h.burst_le, hr.trans h.rate_eq, hb.trans h.burst_eq⟩

theorem LimitState.enforceAll (h : LimitState rate burst state) (rule : RuleRef)
    (packets : List EnforcedPacket) :
    LimitState rate burst (enforceAll rule state packets) := by
  induction packets generalizing state with
  | nil => exact h
  | cons packet packets ih => exact ih (h.step rule packet)

theorem bucket_enforceAll (h : LimitState rate burst state) (packets : List EnforcedPacket)
    (hl : rule.action = RuleAction.limit.toU8) :
    (enforceAll rule state packets).bucket =
      TokenBucket.run state.bucketParams state.bucket packets := by
  induction packets generalizing state with
  | nil => rfl
  | cons packet packets ih =>
    have htail := ih (h.step rule packet)
    rwa [bucketParams_enforceLocked, (enforceLocked_limit h packet hl).1] at htail

/-- The bytes of a run are what the bucket lets through. -/
theorem passedBytes_eq (h : LimitState rate burst state) (packets : List EnforcedPacket)
    (hl : rule.action = RuleAction.limit.toU8) :
    passedBytes rule state packets =
      TokenBucket.total state.bucketParams state.bucket packets := by
  induction packets generalizing state with
  | nil => rfl
  | cons packet packets ih =>
    obtain ⟨hbucket, hbytes⟩ := enforceLocked_limit h packet hl
    have htail := ih (h.step rule packet)
    rw [bucketParams_enforceLocked, hbucket] at htail
    simp only [passedBytes, TokenBucket.total, hbytes, htail]

/-- A limit polices: after any packets the refill product fits a `u64`, no more
than a burst is stored (once the state was created or refilled under these
parameters), the clock of the state does not go back, a refill too small for a
token keeps the elapsed time, and any further window lets through no more than
what may be stored and what the rate earns until its latest reading. -/
theorem limit_polices (h : LimitState rate burst state) (hl : rule.action = RuleAction.limit.toU8)
    (before : List EnforcedPacket) (first : EnforcedPacket) (rest : List EnforcedPacket) :
    let s := enforceAll rule state before
    let elapsed := min (first.now - s.lastRefillMonoNs) refillCapNs
    elapsed * s.rateBytesPerS < 2 ^ 64 ∧
      (state.tokens ≤ burst ∨ s.lastRefillMonoNs ≠ state.lastRefillMonoNs → s.tokens ≤ burst) ∧
      s.lastRefillMonoNs ≤
        (enforceLocked rule first.cost first.now s).2.lastRefillMonoNs ∧
      (elapsed * rate / nsPerSecond = 0 → refill s first.now = s) ∧
      passedBytes rule s (first :: rest) ≤ max burst s.tokens +
        rate * (TokenBucket.latest first rest - first.now) / nsPerSecond + 1 := by
  intro s elapsed
  have hs : LimitState rate burst s := h.enforceAll rule before
  have hparams : s.bucketParams = ⟨nsPerSecond, rate, burst, refillCapNs⟩ := by
    rw [RuleState.bucketParams, hs.rate_eq, hs.burst_eq]
  refine ⟨refill_product_lt hs _, ?_, ?_, ?_, ?_⟩
  · intro hset
    have htokens := TokenBucket.tokens_run (p := state.bucketParams) state.bucket before
    rw [← bucket_enforceAll h before hl, RuleState.bucketParams, h.burst_eq] at htokens
    rcases htokens with hle | ⟨hlast, hle⟩
    · exact hle
    · rcases hset with hset | hset
      · exact hle.trans hset
      · exact absurd hlast hset
  · have hlast := TokenBucket.last_le_step (p := s.bucketParams) s.bucket first
    rwa [← (enforceLocked_limit hs first hl).1] at hlast
  · intro hzero
    have hlt : elapsed * rate < 2 ^ 64 := by
      rw [← hs.rate_eq]
      exact refill_product_lt hs _
    simp only [refill, hs.rate_eq]
    change (if 0 < elapsed * rate % 2 ^ 64 / nsPerSecond then _ else s) = s
    rw [Nat.mod_eq_of_lt hlt, hzero]
    rfl
  · rw [passedBytes_eq hs _ hl, hparams]
    have hrate := (rate_of_validate h.valid).1
    have hcap : nsPerSecond ≤ refillCapNs * rate :=
      Nat.le_mul_of_pos_right _ (Nat.lt_of_lt_of_le (by decide) hrate)
    exact TokenBucket.total_le (show 0 < nsPerSecond by decide) hcap s.bucket first rest

end Limit

section Example

/-- One gigabyte per second, a gigabyte at once, and all of it there. -/
def fullState : RuleState where
  rateBytesPerS := 1000000000
  burstBytes := 1000000000
  tokens := 1000000000

/-- The last packet read the clock before the second one did. -/
def lateReading : List EnforcedPacket :=
  [⟨1000000000, 0⟩, ⟨1, 1000000000⟩, ⟨999999999, 1⟩]

theorem limit_polices_full :
    passedBytes ⟨1, RuleAction.limit.toU8⟩ fullState lateReading ≤
      max 1000000000 fullState.tokens + 1000000000 * (1000000000 - 0) / nsPerSecond + 1 := by
  have hstate : LimitState 1000000000 1000000000 fullState := ⟨by decide, by decide, rfl, rfl⟩
  exact (limit_polices hstate rfl [] ⟨1000000000, 0⟩
    [⟨1, 1000000000⟩, ⟨999999999, 1⟩]).2.2.2.2

/-- Between the first and the last reading of that run, one nanosecond apart,
two bursts pass. -/
theorem late_reading_exceeds_bound :
    fullState.tokens ≤ 1000000000 ∧
      (ActionSpec.limit 1000000000 1000000000).validate = .ok () ∧
      ¬ passedBytes ⟨1, RuleAction.limit.toU8⟩ fullState lateReading ≤
        1000000000 + 1000000000 * (1 - 0) / nsPerSecond + 1 := by
  exact ⟨by decide, by decide, by decide⟩

end Example

end ZimaScope
