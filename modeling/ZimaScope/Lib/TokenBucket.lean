import Mathlib.Algebra.Order.Group.Nat
import Mathlib.Algebra.Ring.Nat
import Mathlib.Tactic.Linarith
import Mathlib.Tactic.Ring

/-! # Token buckets

A bucket earns tokens as its clock advances and lets an arrival through when it
holds the cost. Readings may come late; they then earn nothing. Over any window
of arrivals the bucket lets through no more than its burst and what its rate
earns until the latest reading of the window.
-/

namespace TokenBucket

/-- A tick earns `rate / scale` tokens; at most `cap` ticks are credited at once
and at most `burst` tokens are kept. -/
structure Params where
  scale : ℕ
  rate : ℕ
  burst : ℕ
  cap : ℕ

structure Bucket where
  tokens : ℕ
  last : ℕ

structure Arrival where
  cost : ℕ
  now : ℕ

variable (p : Params)

def earned (b : Bucket) (now : ℕ) : ℕ := min (now - b.last) p.cap * p.rate / p.scale

/-- The clock of the bucket advances only when at least one token is earned. -/
def refill (b : Bucket) (now : ℕ) : Bucket :=
  if 0 < earned p b now then ⟨min (b.tokens + earned p b now) p.burst, now⟩ else b

def spend (b : Bucket) (cost : ℕ) : Bucket :=
  if cost ≤ b.tokens then ⟨b.tokens - cost, b.last⟩ else b

def step (b : Bucket) (a : Arrival) : Bucket := spend (refill p b a.now) a.cost

/-- What an arrival gets through: its whole cost or nothing. -/
def granted (b : Bucket) (a : Arrival) : ℕ :=
  if a.cost ≤ (refill p b a.now).tokens then a.cost else 0

def run (b : Bucket) (as : List Arrival) : Bucket := as.foldl (step p) b

def total (b : Bucket) : List Arrival → ℕ
  | [] => 0
  | a :: as => granted p b a + total (step p b a) as

/-- The latest reading of a window. -/
def latest (a : Arrival) (as : List Arrival) : ℕ := as.foldl (fun t a => max t a.now) a.now

variable {p} {b : Bucket} {a : Arrival} {as : List Arrival}

/-- A bucket holds more than its burst only as long as nothing has been earned. -/
theorem tokens_refill (b : Bucket) (now : ℕ) :
    (refill p b now).tokens ≤ p.burst ∨ refill p b now = b := by
  unfold refill
  split
  · exact Or.inl (min_le_right _ _)
  · exact Or.inr rfl

theorem last_le_refill (b : Bucket) (now : ℕ) : b.last ≤ (refill p b now).last := by
  unfold refill
  split
  · next h =>
    by_contra hlt
    have hz : now - b.last = 0 := by
      simp only [not_le] at hlt
      omega
    simp [earned, hz] at h
  · exact le_rfl

theorem refill_last_le_max (b : Bucket) (now : ℕ) : (refill p b now).last ≤ max b.last now := by
  unfold refill
  split
  · exact le_max_right _ _
  · exact le_max_left _ _

@[simp] theorem last_spend (b : Bucket) (cost : ℕ) : (spend b cost).last = b.last := by
  unfold spend
  split <;> rfl

theorem tokens_spend_le (b : Bucket) (cost : ℕ) : (spend b cost).tokens ≤ b.tokens := by
  unfold spend
  split
  · exact Nat.sub_le _ _
  · exact le_rfl

/-- What gets through is taken from the refilled bucket. -/
theorem granted_add_tokens_step (b : Bucket) (a : Arrival) :
    granted p b a + (step p b a).tokens = (refill p b a.now).tokens := by
  unfold granted step spend
  split
  · next h => exact Nat.add_sub_cancel' h
  · exact Nat.zero_add _

theorem last_le_step (b : Bucket) (a : Arrival) : b.last ≤ (step p b a).last := by
  rw [step, last_spend]
  exact last_le_refill _ _

theorem tokens_step (b : Bucket) (a : Arrival) : (step p b a).tokens ≤ p.burst ∨
    (step p b a).last = b.last ∧ (step p b a).tokens ≤ b.tokens := by
  have hspend := tokens_spend_le (refill p b a.now) a.cost
  rcases tokens_refill (p := p) b a.now with h | h
  · exact Or.inl (hspend.trans h)
  · rw [step, last_spend]
    rw [h] at hspend ⊢
    exact Or.inr ⟨rfl, hspend⟩

theorem tokens_run (b : Bucket) (as : List Arrival) : (run p b as).tokens ≤ p.burst ∨
    (run p b as).last = b.last ∧ (run p b as).tokens ≤ b.tokens := by
  induction as generalizing b with
  | nil => exact Or.inr ⟨rfl, le_rfl⟩
  | cons a as ih =>
    rcases ih (step p b a) with h | ⟨hlast, htokens⟩
    · exact Or.inl h
    · change (run p (step p b a) as).tokens ≤ p.burst ∨
        (run p (step p b a) as).last = b.last ∧ (run p (step p b a) as).tokens ≤ b.tokens
      rcases tokens_step (p := p) b a with h | ⟨hlast', htokens'⟩
      · exact Or.inl (htokens.trans h)
      · exact Or.inr ⟨hlast.trans hlast', htokens.trans htokens'⟩

theorem last_run_le {t : ℕ} (h : ∀ a ∈ as, a.now ≤ t) : (run p b as).last ≤ max b.last t := by
  induction as generalizing b with
  | nil => exact le_max_left _ _
  | cons a as ih =>
    have hstep : (step p b a).last ≤ max b.last t := by
      rw [step, last_spend]
      have ha := h a List.mem_cons_self
      have hr := refill_last_le_max (p := p) b a.now
      omega
    have hrun : (run p (step p b a) as).last ≤ max (step p b a).last t :=
      ih fun a' ha' => h a' (List.mem_cons_of_mem _ ha')
    exact hrun.trans (max_le hstep (le_max_right _ _))

/-- A refill pays for the tokens it adds with the time it credits. -/
theorem refill_conserves (b : Bucket) (now : ℕ) :
    p.scale * (refill p b now).tokens + p.rate * b.last ≤
      p.scale * b.tokens + p.rate * (refill p b now).last := by
  unfold refill
  split
  · next h =>
    have hlast : b.last ≤ now := by
      have hl := last_le_refill (p := p) b now
      rwa [refill, if_pos h] at hl
    have hearned : p.scale * earned p b now ≤ p.rate * (now - b.last) :=
      calc p.scale * earned p b now ≤ min (now - b.last) p.cap * p.rate := Nat.mul_div_le _ _
        _ ≤ (now - b.last) * p.rate := Nat.mul_le_mul_right _ (min_le_left _ _)
        _ = p.rate * (now - b.last) := Nat.mul_comm _ _
    have htime : p.rate * now = p.rate * (now - b.last) + p.rate * b.last := by
      rw [← Nat.mul_add, Nat.sub_add_cancel hlast]
    calc p.scale * min (b.tokens + earned p b now) p.burst + p.rate * b.last
        ≤ p.scale * (b.tokens + earned p b now) + p.rate * b.last :=
          Nat.add_le_add_right (Nat.mul_le_mul_left _ (min_le_left _ _)) _
      _ ≤ p.scale * b.tokens + p.rate * now := by
          rw [Nat.mul_add, htime]
          omega
  · exact le_rfl

/-- Everything a run lets through and leaves was there or has been earned. -/
theorem run_conserves (b : Bucket) (as : List Arrival) :
    p.scale * (total p b as + (run p b as).tokens) + p.rate * b.last ≤
      p.scale * b.tokens + p.rate * (run p b as).last := by
  induction as generalizing b with
  | nil => simp [total, run]
  | cons a as ih =>
    have hih := ih (step p b a)
    have hrefill := refill_conserves (p := p) b a.now
    have hspend := granted_add_tokens_step (p := p) b a
    have hlast : (step p b a).last = (refill p b a.now).last := last_spend _ _
    rw [← hspend, Nat.mul_add, ← hlast] at hrefill
    change p.scale * (granted p b a + total p (step p b a) as + (run p (step p b a) as).tokens) +
      p.rate * b.last ≤ p.scale * b.tokens + p.rate * (run p (step p b a) as).last
    rw [Nat.add_assoc, Nat.mul_add]
    omega

/-- A refill leaves less than one token of elapsed time uncredited. -/
theorem uncredited_lt (b : Bucket) (now : ℕ) (hscale : 0 < p.scale) (hcap : p.scale ≤ p.cap * p.rate) :
    p.rate * now < p.rate * (refill p b now).last + p.scale := by
  unfold refill
  split
  · exact Nat.lt_add_of_pos_right hscale
  · next h =>
    have hlt : min (now - b.last) p.cap * p.rate < p.scale := by
      by_contra hge
      exact h (Nat.div_pos (not_lt.mp hge) hscale)
    have helapsed : min (now - b.last) p.cap = now - b.last := by
      apply min_eq_left
      by_contra hc
      rw [min_eq_right (not_le.mp hc).le] at hlt
      omega
    rw [helapsed] at hlt
    calc p.rate * now ≤ p.rate * (b.last + (now - b.last)) :=
          Nat.mul_le_mul_left _ (by omega)
      _ = p.rate * b.last + (now - b.last) * p.rate := by ring
      _ < p.rate * b.last + p.scale := Nat.add_lt_add_left hlt _

theorem le_latest (a : Arrival) (as : List Arrival) :
    a.now ≤ latest a as ∧ ∀ a' ∈ as, a'.now ≤ latest a as := by
  have hfold : ∀ t, t ≤ as.foldl (fun t a => max t a.now) t ∧
      ∀ a' ∈ as, a'.now ≤ as.foldl (fun t a => max t a.now) t := by
    induction as with
    | nil => simp
    | cons a' as ih =>
      intro t
      obtain ⟨ht, hmem⟩ := ih (max t a'.now)
      refine ⟨(le_max_left _ _).trans ht, ?_⟩
      intro a'' ha''
      rcases List.mem_cons.mp ha'' with rfl | ha''
      · exact (le_max_right _ _).trans ht
      · exact hmem a'' ha''
  exact hfold a.now

/-- What a window lets through. -/
theorem total_le (hscale : 0 < p.scale) (hcap : p.scale ≤ p.cap * p.rate) (b : Bucket)
    (a : Arrival) (as : List Arrival) :
    total p b (a :: as) ≤
      max p.burst b.tokens + p.rate * (latest a as - a.now) / p.scale + 1 := by
  have hrun := run_conserves (p := p) (step p b a) as
  have hspend := granted_add_tokens_step (p := p) b a
  have hlast : (step p b a).last = (refill p b a.now).last := last_spend _ _
  have hstored : (refill p b a.now).tokens ≤ max p.burst b.tokens := by
    rcases tokens_refill (p := p) b a.now with h | h
    · exact h.trans (le_max_left _ _)
    · rw [h]
      exact le_max_right _ _
  have htotal : total p b (a :: as) = granted p b a + total p (step p b a) as := rfl
  have hpaid : p.scale * total p b (a :: as) + p.rate * (refill p b a.now).last ≤
      p.scale * max p.burst b.tokens + p.rate * (run p (step p b a) as).last := by
    have hle := Nat.mul_le_mul_left p.scale hstored
    rw [← hspend, Nat.mul_add] at hle
    rw [hlast, Nat.mul_add] at hrun
    rw [htotal, Nat.mul_add]
    omega
  obtain ⟨hfirst, hrest⟩ := le_latest a as
  have hend : (run p (step p b a) as).last ≤ max (step p b a).last (latest a as) :=
    last_run_le hrest
  have hbound : p.scale * total p b (a :: as) ≤
      p.scale * (max p.burst b.tokens + 1) + p.rate * (latest a as - a.now) := by
    rcases le_total (step p b a).last (latest a as) with hl | hl
    · have hpast := uncredited_lt b a.now hscale hcap
      have htime : p.rate * latest a as =
          p.rate * (latest a as - a.now) + p.rate * a.now := by
        rw [← Nat.mul_add, Nat.sub_add_cancel hfirst]
      have hmono := Nat.mul_le_mul_left p.rate (hend.trans (max_le hl le_rfl))
      rw [Nat.mul_add, Nat.mul_one]
      omega
    · have hmono := Nat.mul_le_mul_left p.rate (hend.trans (max_le le_rfl hl))
      rw [hlast] at hmono
      rw [Nat.mul_add]
      omega
  calc total p b (a :: as)
      ≤ (p.scale * (max p.burst b.tokens + 1) + p.rate * (latest a as - a.now)) / p.scale :=
        (Nat.le_div_iff_mul_le hscale).mpr (by rwa [Nat.mul_comm])
    _ = max p.burst b.tokens + p.rate * (latest a as - a.now) / p.scale + 1 := by
        rw [Nat.mul_add_div hscale]
        omega

end TokenBucket
