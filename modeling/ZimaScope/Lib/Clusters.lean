import Mathlib.Data.List.Destutter

/-! # Clusters

A list in which equal elements stand together. Removing each element that equals
the one before it leaves no element twice exactly in such a list.
-/

namespace List

variable {α : Type*} {a b : α} {l : List α}

/-- Between two equal elements there are only elements equal to them. -/
def Clustered (l : List α) : Prop :=
  ∀ before a between behind, l = before ++ a :: (between ++ a :: behind) → ∀ b ∈ between, b = a

theorem clustered_nil : ([] : List α).Clustered := by
  intro before a between behind h
  simp at h

theorem clustered_singleton : [a].Clustered := by
  intro before c between behind h
  have hlength := congrArg length h
  simp only [length_cons, length_nil, length_append] at hlength
  omega

theorem clustered_cons_self : (a :: a :: l).Clustered ↔ (a :: l).Clustered := by
  constructor
  · intro h before c between behind heq
    exact h (a :: before) c between behind (by rw [heq, cons_append])
  · intro h before c between behind heq
    cases before with
    | cons d before =>
      exact h before c between behind (cons.inj heq).2
    | nil =>
      obtain ⟨rfl, heq⟩ := cons.inj heq
      cases between with
      | nil => simp
      | cons d between =>
        obtain ⟨rfl, hl⟩ := cons.inj heq
        have hrest := h [] a between behind (by rw [hl]; rfl)
        simpa using hrest

theorem clustered_cons_of_ne (h : a ≠ b) :
    (a :: b :: l).Clustered ↔ a ∉ b :: l ∧ (b :: l).Clustered := by
  constructor
  · intro hl
    refine ⟨?_, fun before c between behind heq =>
      hl (a :: before) c between behind (by rw [heq, cons_append])⟩
    rw [mem_cons, not_or]
    refine ⟨h, fun hmem => ?_⟩
    obtain ⟨between, behind, rfl⟩ := append_of_mem hmem
    exact h (hl [] a (b :: between) behind rfl b mem_cons_self).symm
  · rintro ⟨ha, hl⟩ before c between behind heq
    cases before with
    | nil =>
      obtain ⟨rfl, heq⟩ := cons.inj heq
      rw [heq] at ha
      simp at ha
    | cons d before => exact hl before c between behind (cons.inj heq).2

variable [DecidableEq α]

theorem mem_destutter'_ne_iff {c : α} : c ∈ l.destutter' (· ≠ ·) a ↔ c ∈ a :: l := by
  refine ⟨fun h => (destutter'_sublist (R := (· ≠ ·)) l a).subset h, fun h => ?_⟩
  induction l generalizing a with
  | nil => exact h
  | cons b l ih =>
    by_cases hab : a = b
    · subst hab
      rw [destutter'_cons_neg (R := (· ≠ ·)) l (not_not.mpr rfl)]
      exact ih (by simpa using h)
    · rw [destutter'_cons_pos (R := (· ≠ ·)) l hab]
      rcases mem_cons.mp h with rfl | h
      · exact mem_cons_self
      · exact mem_cons_of_mem _ (ih h)

/-- `dedup` removes every repetition of a list whose equal elements stand together, and only of
such a list. -/
theorem nodup_destutter_ne_iff : (l.destutter (· ≠ ·)).Nodup ↔ l.Clustered := by
  cases l with
  | nil => simpa using clustered_nil
  | cons a l =>
    rw [destutter_cons']
    induction l generalizing a with
    | nil => simpa using clustered_singleton
    | cons b l ih =>
      by_cases hab : a = b
      · subst hab
        rw [destutter'_cons_neg (R := (· ≠ ·)) l (not_not.mpr rfl), clustered_cons_self]
        exact ih a
      · rw [destutter'_cons_pos (R := (· ≠ ·)) l hab, nodup_cons, mem_destutter'_ne_iff,
          clustered_cons_of_ne hab, ih]

end List
