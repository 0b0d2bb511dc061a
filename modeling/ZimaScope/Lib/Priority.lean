import Mathlib.Data.List.MinMax
import Mathlib.Logic.Function.Basic

/-! # Priority lookup

A lookup that tries candidate keys in order and takes the first value it finds
acceptable. A value that must not be selected is harmless as long as some
candidate above it answers.
-/

namespace Priority

variable {κ α : Type*}

/-- A key to try, and the values accepted from it. -/
structure Candidate (κ α : Type*) where
  key : κ
  accepts : α → Bool

def answer (t : κ → Option α) (c : Candidate κ α) : Option α := (t c.key).filter c.accepts

/-- The answer of the first candidate that has one. -/
def first (t : κ → Option α) (cs : List (Candidate κ α)) : Option α := cs.findSome? (answer t)

/-- Every unwanted answer has a candidate above it that answers too. -/
def Shielded (unwanted : α → Prop) (t : κ → Option α) (cs : List (Candidate κ α)) : Prop :=
  ∀ higher c lower, cs = higher ++ c :: lower → ∀ a, answer t c = some a → unwanted a →
    ∃ h ∈ higher, (answer t h).isSome

variable {t : κ → Option α} {cs cs' : List (Candidate κ α)} {c : Candidate κ α} {a : α}

theorem answer_eq_some : answer t c = some a ↔ t c.key = some a ∧ c.accepts a = true := by
  simp [answer, Option.filter_eq_some_iff]

@[simp] theorem first_nil : first t [] = none := rfl

theorem first_cons : first t (c :: cs) = (answer t c).or (first t cs) := by
  unfold first
  rw [List.findSome?_cons]
  cases answer t c <;> rfl

theorem first_append : first t (cs ++ cs') = (first t cs).or (first t cs') :=
  List.findSome?_append

theorem first_eq_some_iff : first t cs = some a ↔ ∃ higher c lower, cs = higher ++ c :: lower ∧
    answer t c = some a ∧ ∀ h ∈ higher, answer t h = none := by
  rw [first, List.findSome?_eq_some_iff]

theorem exists_of_first (h : first t cs = some a) : ∃ c ∈ cs, t c.key = some a := by
  obtain ⟨c, hc, ha⟩ := List.exists_of_findSome?_eq_some h
  exact ⟨c, hc, (answer_eq_some.mp ha).1⟩

/-- The lookup never selects an unwanted value exactly when all of them are shielded. -/
theorem shielded_iff {unwanted : α → Prop} :
    Shielded unwanted t cs ↔ ∀ a, first t cs = some a → ¬ unwanted a := by
  constructor
  · intro h a ha hu
    obtain ⟨higher, c, lower, hcs, hc, hn⟩ := first_eq_some_iff.mp ha
    obtain ⟨c', hc', hs⟩ := h higher c lower hcs a hc hu
    rw [hn c' hc'] at hs
    simp at hs
  · intro h higher c lower hcs a hc hu
    by_contra hn
    refine h a (first_eq_some_iff.mpr ⟨higher, c, lower, hcs, hc, fun c' hc' => ?_⟩) hu
    exact Option.not_isSome_iff_eq_none.mp fun hs => hn ⟨c', hc', hs⟩

/-- Candidates tried in the order of their ranks find an item of minimal rank:
every item answers at its own rank, and what answers at a rank is an item of
that rank or a smaller one. -/
theorem first_eq_argmin {β : Type*} {ranked : List (ℕ × Candidate κ α)} {items : List β}
    {rank : β → ℕ} {value : β → α} (hsorted : ranked.Pairwise fun a b => a.1 < b.1)
    (hitem : ∀ b ∈ items, ∃ rc ∈ ranked, rc.1 = rank b ∧ answer t rc.2 = some (value b))
    (hanswer : ∀ rc ∈ ranked, ∀ a, answer t rc.2 = some a →
      ∃ b ∈ items, value b = a ∧ rank b ≤ rc.1) :
    first t (ranked.map Prod.snd) = (items.argmin rank).map value := by
  cases hf : first t (ranked.map Prod.snd) with
  | none =>
    have hnil : items = [] := by
      apply List.eq_nil_iff_forall_not_mem.mpr
      intro b hb
      obtain ⟨rc, hrc, _, ha⟩ := hitem b hb
      have hn := List.findSome?_eq_none_iff.mp hf rc.2 (List.mem_map_of_mem hrc)
      rw [hn] at ha
      simp at ha
    rw [hnil]
    rfl
  | some a =>
    obtain ⟨higher, c, lower, hcs, ha, hsilent⟩ := first_eq_some_iff.mp hf
    obtain ⟨higher, rest, rfl, rfl, hrest⟩ := List.map_eq_append_iff.mp hcs
    obtain ⟨rc, lower, rfl, rfl, rfl⟩ := List.map_eq_cons_iff.mp hrest
    obtain ⟨b, hb, hv, hle⟩ := hanswer rc (by simp) a ha
    obtain ⟨best, hbest⟩ : ∃ best, items.argmin rank = some best := by
      cases hn : items.argmin rank with
      | none =>
        rw [List.argmin_eq_none.mp hn] at hb
        simp at hb
      | some best => exact ⟨best, rfl⟩
    have hmin := List.le_of_mem_argmin hb hbest
    obtain ⟨rc', hrc', hrank, ha'⟩ := hitem best (List.argmin_mem hbest)
    have hpair := (List.pairwise_append.mp hsorted).2.1
    have heq : rc' = rc := by
      rcases List.mem_append.mp hrc' with hh | hh
      · rw [hsilent rc'.2 (List.mem_map_of_mem hh)] at ha'
        simp at ha'
      · rcases List.mem_cons.mp hh with rfl | hh
        · rfl
        · have hlt := List.rel_of_pairwise_cons hpair hh
          omega
    subst heq
    rw [hbest, ← ha, ha']
    rfl

section Write

variable [DecidableEq κ]

theorem answer_update (k : κ) (v : Option α) :
    answer (Function.update t k v) c = if c.key = k then v.filter c.accepts else answer t c := by
  unfold answer
  rw [Function.update_apply]
  split <;> rfl

/-- Clearing a key leaves the unwanted answers under other keys shielded by other keys. -/
theorem shielded_clear_iff {unwanted : α → Prop} {k : κ} :
    Shielded unwanted (Function.update t k none) cs ↔
      ∀ higher c lower, cs = higher ++ c :: lower → c.key ≠ k → ∀ a, answer t c = some a →
        unwanted a → ∃ h ∈ higher, h.key ≠ k ∧ (answer t h).isSome := by
  have hans : ∀ c : Candidate κ α, answer (Function.update t k none) c =
      if c.key = k then none else answer t c := fun c => by
    rw [answer_update]
    rfl
  have hsome : ∀ h : Candidate κ α, (answer (Function.update t k none) h).isSome ↔
      h.key ≠ k ∧ (answer t h).isSome := by
    intro h
    rw [hans]
    split <;> simp_all
  unfold Shielded
  simp only [hsome]
  constructor
  · intro h higher c lower hcs hk a ha hu
    exact h higher c lower hcs a (by rw [hans, if_neg hk, ha]) hu
  · intro h higher c lower hcs a ha hu
    rw [hans] at ha
    split at ha
    · simp at ha
    · next hk => exact h higher c lower hcs hk a ha hu

/-- After writing a key, the unwanted answers are those under other keys and
the written value, and the written value shields what it is accepted above. -/
theorem shielded_write_iff {unwanted : α → Prop} {k : κ} {v : α} :
    Shielded unwanted (Function.update t k (some v)) cs ↔
      ∀ higher c lower, cs = higher ++ c :: lower →
        (c.key ≠ k ∧ ∃ a, answer t c = some a ∧ unwanted a) ∨
          (c.key = k ∧ c.accepts v = true ∧ unwanted v) →
        ∃ h ∈ higher, (h.key ≠ k ∧ (answer t h).isSome) ∨ (h.key = k ∧ h.accepts v = true) := by
  have hans : ∀ c : Candidate κ α, answer (Function.update t k (some v)) c =
      if c.key = k then (some v).filter c.accepts else answer t c := fun c => answer_update k _
  have hval : ∀ (c : Candidate κ α) a, answer (Function.update t k (some v)) c = some a ↔
      (c.key ≠ k ∧ answer t c = some a) ∨ (c.key = k ∧ c.accepts v = true ∧ v = a) := by
    intro c a
    rw [hans]
    split
    · next hk =>
      rw [Option.filter_eq_some_iff]
      constructor
      · rintro ⟨hv, ha⟩
        obtain rfl := Option.some.inj hv
        exact Or.inr ⟨hk, ha, rfl⟩
      · rintro (⟨hn, _⟩ | ⟨_, ha, rfl⟩)
        · exact absurd hk hn
        · exact ⟨rfl, ha⟩
    · next hk => simp [hk]
  have hsome : ∀ h : Candidate κ α, (answer (Function.update t k (some v)) h).isSome ↔
      (h.key ≠ k ∧ (answer t h).isSome) ∨ (h.key = k ∧ h.accepts v = true) := by
    intro h
    simp only [Option.isSome_iff_exists, hval]
    constructor
    · rintro ⟨a, ⟨hk, ha⟩ | ⟨hk, hv, _⟩⟩
      · exact Or.inl ⟨hk, a, ha⟩
      · exact Or.inr ⟨hk, hv⟩
    · rintro (⟨hk, a, ha⟩ | ⟨hk, hv⟩)
      · exact ⟨a, Or.inl ⟨hk, ha⟩⟩
      · exact ⟨v, Or.inr ⟨hk, hv, rfl⟩⟩
  unfold Shielded
  simp only [hsome]
  constructor
  · rintro h higher c lower hcs (⟨hk, a, ha, hu⟩ | ⟨hk, hv, hu⟩)
    · exact h higher c lower hcs a ((hval c a).mpr (Or.inl ⟨hk, ha⟩)) hu
    · exact h higher c lower hcs v ((hval c v).mpr (Or.inr ⟨hk, hv, rfl⟩)) hu
  · intro h higher c lower hcs a ha hu
    apply h higher c lower hcs
    rcases (hval c a).mp ha with ⟨hk, ha⟩ | ⟨hk, hv, rfl⟩
    · exact Or.inl ⟨hk, a, ha, hu⟩
    · exact Or.inr ⟨hk, hv, hu⟩

end Write

end Priority
