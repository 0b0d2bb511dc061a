import Mathlib.Order.Defs.Unbundled

/-! # Transition systems

States reachable from the initial ones by steps, and the rule that an
inductive invariant holds in all of them.
-/

/-- A transition system on a type of states. -/
structure System (σ : Type*) where
  init : σ → Prop
  step : σ → σ → Prop

namespace System

variable {σ : Type*} {S T : System σ}

inductive Reachable (S : System σ) : σ → Prop
  | init {s : σ} (h : S.init s) : Reachable S s
  | step {s s' : σ} (hr : Reachable S s) (h : S.step s s') : Reachable S s'

/-- An invariant of the initial states that every step keeps holds in every reachable state. -/
theorem Reachable.invariant {P : σ → Prop} {s : σ} (hr : S.Reachable s)
    (hinit : ∀ s, S.init s → P s) (hstep : ∀ s s', P s → S.step s s' → P s') : P s := by
  induction hr with
  | init h => exact hinit _ h
  | step _ h ih => exact hstep _ _ ih h

/-- What one system reaches, a system with more steps reaches. -/
theorem Reachable.mono {s : σ} (hr : S.Reachable s) (hinit : ∀ s, S.init s → T.init s)
    (hstep : ∀ s s', S.step s s' → T.step s s') : T.Reachable s := by
  induction hr with
  | init h => exact .init (hinit _ h)
  | step _ h ih => exact .step ih (hstep _ _ h)

end System
