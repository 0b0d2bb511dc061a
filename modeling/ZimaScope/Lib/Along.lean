import Mathlib.Data.List.Basic

/-! # Properties along a run

A predicate that holds at every point of a fold: before the first step, after
the last and in between. Runs compose, so a long run is taken apart into its
phases and each phase is argued with its own invariant.
-/

variable {σ ι α : Type*} {step : σ → ι → σ} {P Q : σ → Prop}

/-- The predicate holds before, between and after the steps. -/
def Along (step : σ → ι → σ) (P : σ → Prop) : σ → List ι → Prop
  | s, [] => P s
  | s, i :: is => P s ∧ Along step P (step s i) is

namespace Along

theorem here {s : σ} {is : List ι} (h : Along step P s is) : P s := by
  cases is with
  | nil => exact h
  | cons i is => exact h.1

theorem append_iff {s : σ} {is js : List ι} :
    Along step P s (is ++ js) ↔ Along step P s is ∧ Along step P (is.foldl step s) js := by
  induction is generalizing s with
  | nil => exact ⟨fun h => ⟨h.here, h⟩, fun h => h.2⟩
  | cons i is ih =>
    simp only [List.cons_append, Along, List.foldl_cons, ih, and_assoc]

/-- What holds along a run holds after each of its prefixes. -/
theorem after {s : σ} {executed rest : List ι} (h : Along step P s (executed ++ rest)) :
    P (executed.foldl step s) :=
  (append_iff.mp h).2.here

/-- What holds after each prefix of a run holds along it. -/
theorem of_prefixes {s : σ} {is : List ι}
    (h : ∀ before behind, is = before ++ behind → P (before.foldl step s)) :
    Along step P s is := by
  induction is generalizing s with
  | nil => exact h [] [] rfl
  | cons i is ih =>
    refine ⟨h [] (i :: is) rfl, ih fun before behind his => ?_⟩
    exact h (i :: before) behind (by rw [his, List.cons_append])

theorem last {s : σ} {is : List ι} (h : Along step P s is) : P (is.foldl step s) := by
  rw [← List.append_nil is] at h
  exact h.after

theorem mono {s : σ} {is : List ι} (h : Along step P s is) (hpq : ∀ s, P s → Q s) :
    Along step Q s is := by
  induction is generalizing s with
  | nil => exact hpq s h
  | cons i is ih => exact ⟨hpq s h.1, ih h.2⟩

/-- An invariant of every step of the run holds along it. -/
theorem of_step {s : σ} {is : List ι} (hs : P s) (h : ∀ s, ∀ i ∈ is, P s → P (step s i)) :
    Along step P s is := by
  induction is generalizing s with
  | nil => exact hs
  | cons i is ih =>
    exact ⟨hs, ih (h s i List.mem_cons_self hs) fun s j hj => h s j (List.mem_cons_of_mem i hj)⟩

/-- An invariant that each step of the run keeps where the run takes it holds along the run. -/
theorem of_steps {s : σ} {is : List ι} (hs : P s)
    (h : ∀ before i behind, is = before ++ i :: behind → P (before.foldl step s) →
      P (step (before.foldl step s) i)) : Along step P s is := by
  induction is generalizing s with
  | nil => exact hs
  | cons i is ih =>
    refine ⟨hs, ih (h [] i is rfl hs) fun before j behind his => ?_⟩
    exact h (i :: before) j behind (by rw [his, List.cons_append])

/-- A run made of phases that each keep the invariant along the way keeps it. -/
theorem flatMap {s : σ} {f : α → List ι} {as : List α} (hs : P s)
    (h : ∀ s, ∀ a ∈ as, P s → Along step P s (f a)) : Along step P s (as.flatMap f) := by
  induction as generalizing s with
  | nil => exact hs
  | cons a as ih =>
    rw [List.flatMap_cons, append_iff]
    have ha := h s a List.mem_cons_self hs
    exact ⟨ha, ih ha.last fun s b hb => h s b (List.mem_cons_of_mem a hb)⟩

end Along
