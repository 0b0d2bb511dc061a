import Mathlib.Data.List.Basic

/-! # Programs that ask

A program that may fail and that gets what it reads by asking for it, so that what
it asks for on the way can be said of it: an answer may be missing, and a missing
answer need not make the program fail. The result depends on the answers to what
was asked only.
-/

/-- A program with questions `Q`, answered in `A`. -/
inductive Inquiry (Q : Type) (A : Q → Type) (α : Type)
  | done (result : Option α)
  | ask (question : Q) (next : Option (A question) → Inquiry Q A α)

namespace Inquiry

variable {Q : Type} {A : Q → Type} {α β : Type}

protected def bind : Inquiry Q A α → (α → Inquiry Q A β) → Inquiry Q A β
  | done none, _ => done none
  | done (some a), f => f a
  | ask question next, f => ask question fun answer => (next answer).bind f

/-- Fails never; the result says whether the program did. -/
def attempt : Inquiry Q A α → Inquiry Q A (Option α)
  | done result => done (some result)
  | ask question next => ask question fun answer => (next answer).attempt

instance : Monad (Inquiry Q A) where
  pure a := done (some a)
  bind := Inquiry.bind

instance : Alternative (Inquiry Q A) where
  failure := done none
  orElse x y := x.attempt >>= fun
    | some a => pure a
    | none => y ()

/-- Asks, and fails if there is no answer. -/
def question (q : Q) : Inquiry Q A (A q) := ask q done

/-- Both programs, the second also when the first fails. -/
def both (x : Inquiry Q A α) (y : Inquiry Q A β) : Inquiry Q A (α × β) := do
  let a ← x.attempt
  let b ← y.attempt
  done (do return (← a, ← b))

variable (answer : ∀ q, Option (A q))

def run : Inquiry Q A α → Option α
  | done result => result
  | ask question next => run (next (answer question))

/-- What is asked, in turn. -/
def asked : Inquiry Q A α → List Q
  | done _ => []
  | ask question next => question :: asked (next (answer question))

/-- Whatever is asked is of the kind. -/
def Asks (P : Q → Prop) (x : Inquiry Q A α) : Prop := ∀ question ∈ x.asked answer, P question

section Run

variable {answer} {x : Inquiry Q A α} {y : Inquiry Q A β} {f : α → Inquiry Q A β}

@[simp]
theorem run_pure (a : α) : run answer (pure a : Inquiry Q A α) = some a := rfl

@[simp]
theorem run_done (result : Option α) : run answer (done result : Inquiry Q A α) = result := rfl

@[simp]
theorem run_question (q : Q) : run answer (question q : Inquiry Q A (A q)) = answer q := rfl

@[simp]
theorem run_bind : run answer (x >>= f) = (run answer x).bind fun a => run answer (f a) := by
  change run answer (x.bind f) = _
  induction x with
  | done result => cases result <;> rfl
  | ask question next ih => exact ih (answer question)

theorem run_question_bind {q : Q} {a : A q} {f : A q → Inquiry Q A β} (h : answer q = some a) :
    run answer (question q >>= f) = run answer (f a) := by
  rw [run_bind, run_question, h, Option.bind_some]

@[simp]
theorem run_guard {c : Prop} [Decidable c] :
    run answer (guard c : Inquiry Q A Unit) = (guard c : Option Unit) := by
  unfold guard
  split <;> rfl

theorem run_guard_bind {c : Prop} [Decidable c] {f : Unit → Inquiry Q A β} (h : c) :
    run answer (guard c >>= f) = run answer (f ()) := by
  rw [run_bind, run_guard, show (guard c : Option Unit) = some () from if_pos h, Option.bind_some]

@[simp]
theorem run_ite {c : Prop} [Decidable c] {x y : Inquiry Q A α} :
    run answer (if c then x else y) = if c then run answer x else run answer y :=
  apply_ite ..

@[simp]
theorem run_attempt : run answer x.attempt = some (run answer x) := by
  induction x with
  | done result => rfl
  | ask question next ih => exact ih (answer question)

@[simp]
theorem run_both : run answer (x.both y) =
    (run answer x).bind fun a => (run answer y).bind fun b => some (a, b) := by
  unfold both
  simp only [run_bind, run_attempt, Option.bind_some, run_done]
  rfl

end Run

section Asked

variable {answer} {x : Inquiry Q A α} {y : Inquiry Q A β} {f : α → Inquiry Q A β} {P : Q → Prop}

theorem asked_bind : (x >>= f).asked answer =
    x.asked answer ++ (run answer x).elim [] fun a => (f a).asked answer := by
  change (x.bind f).asked answer = _
  induction x with
  | done result => cases result <;> rfl
  | ask question next ih => exact congrArg (question :: ·) (ih (answer question))

theorem asked_attempt : x.attempt.asked answer = x.asked answer := by
  induction x with
  | done result => rfl
  | ask question next ih => exact congrArg (question :: ·) (ih (answer question))

@[simp]
theorem asks_pure (a : α) : Asks answer P (pure a : Inquiry Q A α) := fun _ h => nomatch h

@[simp]
theorem asks_done (result : Option α) : Asks answer P (done result : Inquiry Q A α) :=
  fun _ h => nomatch h

@[simp]
theorem asks_question {q : Q} : Asks answer P (question q : Inquiry Q A (A q)) ↔ P q :=
  List.forall_mem_singleton

@[simp]
theorem asks_attempt : Asks answer P x.attempt ↔ Asks answer P x := by
  unfold Asks
  rw [asked_attempt]

theorem asks_bind : Asks answer P (x >>= f) ↔
    Asks answer P x ∧ ∀ a, run answer x = some a → Asks answer P (f a) := by
  unfold Asks
  rw [asked_bind, List.forall_mem_append]
  cases run answer x <;> simp

theorem asks_guard {c : Prop} [Decidable c] : Asks answer P (guard c : Inquiry Q A Unit) := by
  unfold guard
  split
  · exact asks_pure ()
  · exact asks_done none

theorem asks_both : Asks answer P (x.both y) ↔ Asks answer P x ∧ Asks answer P y := by
  unfold both
  rw [asks_bind, asks_attempt, run_attempt]
  simp [asks_bind]

end Asked

/-- Whatever is asked is of the kind, and whatever results has the property. -/
structure Ensures (P : Q → Prop) (R : α → Prop) (x : Inquiry Q A α) : Prop where
  asks : Asks answer P x
  result : ∀ a, run answer x = some a → R a

section Ensures

variable {answer} {x : Inquiry Q A α} {y : Inquiry Q A β} {f : α → Inquiry Q A β} {P : Q → Prop}
  {R : α → Prop} {S : β → Prop}

theorem ensures_pure {a : α} (h : R a) : Ensures answer P R (pure a) := by
  constructor
  · exact asks_pure a
  · rintro _ ⟨⟩
    exact h

theorem ensures_failure : Ensures answer P R (failure : Inquiry Q A α) := by
  constructor
  · exact asks_done none
  · intro a h
    cases h

theorem Ensures.mono {R' : α → Prop} (hx : Ensures answer P R x) (h : ∀ a, R a → R' a) :
    Ensures answer P R' x :=
  ⟨hx.asks, fun a ha => h a (hx.result a ha)⟩

theorem Ensures.weaken {P' : Q → Prop} (hx : Ensures answer P R x) (h : ∀ q, P q → P' q) :
    Ensures answer P' R x :=
  ⟨fun q hq => h q (hx.asks q hq), hx.result⟩

theorem Ensures.bind (hx : Ensures answer P R x) (hf : ∀ a, R a → Ensures answer P S (f a)) :
    Ensures answer P S (x >>= f) := by
  constructor
  · exact asks_bind.mpr ⟨hx.asks, fun a ha => (hf a (hx.result a ha)).asks⟩
  · intro b hb
    rw [run_bind, Option.bind_eq_some_iff] at hb
    obtain ⟨a, ha, hb⟩ := hb
    exact (hf a (hx.result a ha)).result b hb

theorem ensures_question {q : Q} (h : P q) :
    Ensures answer P (fun a => answer q = some a) (question q : Inquiry Q A (A q)) :=
  ⟨asks_question.mpr h, fun _ ha => ha⟩

theorem ensures_guard {c : Prop} [Decidable c] :
    Ensures answer P (fun _ => c) (guard c : Inquiry Q A Unit) := by
  constructor
  · exact asks_guard
  · intro _ h
    rw [run_guard] at h
    by_contra hc
    simp [guard, hc] at h

/-- Whether the program fails decides how it goes on. -/
theorem Ensures.attempt_bind {f : Option α → Inquiry Q A β} (hx : Ensures answer P R x)
    (hsome : ∀ a, R a → Ensures answer P S (f (some a))) (hnone : Ensures answer P S (f none)) :
    Ensures answer P S (x.attempt >>= f) := by
  have hattempt : Ensures answer P (fun result => ∀ a, result = some a → R a) x.attempt := by
    constructor
    · exact asks_attempt.mpr hx.asks
    · intro result hresult a ha
      rw [run_attempt, ha] at hresult
      exact hx.result a (Option.some.inj hresult)
  apply hattempt.bind
  intro result hresult
  cases result with
  | none => exact hnone
  | some a => exact hsome a (hresult a rfl)

theorem Ensures.both (hx : Ensures answer P R x) (hy : Ensures answer P S y) :
    Ensures answer P (fun ab => R ab.1 ∧ S ab.2) (x.both y) := by
  constructor
  · exact asks_both.mpr ⟨hx.asks, hy.asks⟩
  · rintro ⟨a, b⟩ h
    simp only [run_both, Option.bind_eq_some_iff] at h
    obtain ⟨a', ha, b', hb, ⟨⟩⟩ := h
    exact ⟨hx.result a ha, hy.result b hb⟩

end Ensures

/-- The answers to what is asked decide what is asked and the result. -/
theorem run_congr {answer answer' : ∀ q, Option (A q)} {x : Inquiry Q A α}
    (h : Asks answer (fun q => answer q = answer' q) x) :
    run answer x = run answer' x ∧ x.asked answer = x.asked answer' := by
  induction x with
  | done result => exact ⟨rfl, rfl⟩
  | ask question next ih =>
    obtain ⟨hsame, hnext⟩ := List.forall_mem_cons.mp h
    obtain ⟨hrun, hasked⟩ := ih _ hnext
    unfold run asked
    rw [← hsame]
    exact ⟨hrun, congrArg (question :: ·) hasked⟩

end Inquiry
