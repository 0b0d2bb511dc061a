import Mathlib.Data.List.Infix
import Mathlib.Data.List.Basic

/-! # Occurrences and separators

Where a word occurs in a text that separators cut into pieces: a word without the
separator occurs in one of the pieces, and a word between two separators is one of
the pieces that has a separator on either side.
-/

namespace Infix

variable {α : Type*} {c : α} {w a b text : List α} {pieces : List (List α)}

theorem prefix_append_cons (hw : c ∉ w) : w <+: a ++ c :: b ↔ w <+: a := by
  induction a generalizing w with
  | nil =>
    cases w with
    | nil => simp
    | cons y w =>
      rw [List.nil_append, List.cons_prefix_cons, List.prefix_nil]
      constructor
      · rintro ⟨rfl, -⟩
        simp at hw
      · simp
  | cons x a ih =>
    cases w with
    | nil => simp
    | cons y w =>
      rw [List.cons_append, List.cons_prefix_cons, List.cons_prefix_cons,
        ih fun h => hw (List.mem_cons_of_mem _ h)]

theorem infix_append_cons (hw : c ∉ w) : w <:+: a ++ c :: b ↔ w <:+: a ∨ w <:+: b := by
  induction a with
  | nil =>
    have hprefix : w <+: c :: b ↔ w <+: [] := prefix_append_cons (a := []) hw
    rw [List.nil_append, List.infix_cons_iff, hprefix, List.prefix_nil, List.infix_nil]
  | cons x a ih =>
    have hprefix : w <+: x :: (a ++ c :: b) ↔ w <+: x :: a := prefix_append_cons (a := x :: a) hw
    rw [List.cons_append, List.infix_cons_iff, hprefix, ih, ← or_assoc, ← List.infix_cons_iff]

/-- A word that is not empty occurs between separators where it occurs in a piece. -/
theorem infix_intercalate (hw : c ∉ w) (hne : w ≠ []) :
    w <:+: [c].intercalate pieces ↔ ∃ p ∈ pieces, w <:+: p := by
  induction pieces with
  | nil => simp [hne]
  | cons p pieces ih =>
    cases pieces with
    | nil => simp
    | cons q pieces =>
      rw [List.intercalate_cons_cons, List.append_assoc, List.singleton_append,
        infix_append_cons hw, ih]
      simp only [List.exists_mem_cons_iff]

/-- The same with a separator behind each piece. -/
theorem infix_terminated (hw : c ∉ w) (hne : w ≠ []) :
    w <:+: pieces.flatMap (· ++ [c]) ↔ ∃ p ∈ pieces, w <:+: p := by
  induction pieces with
  | nil => simp [hne]
  | cons p pieces ih =>
    rw [List.flatMap_cons, List.append_assoc, List.singleton_append, infix_append_cons hw, ih,
      List.exists_mem_cons_iff]

/-! ## Between separators -/

/-- What starts with a separator does not start in a piece. -/
theorem infix_append_of_not_mem (ha : c ∉ a) : c :: w <:+: a ++ b ↔ c :: w <:+: b := by
  induction a with
  | nil => rfl
  | cons x a ih =>
    rw [List.cons_append, List.infix_cons_iff, ih fun h => ha (List.mem_cons_of_mem _ h)]
    constructor
    · rintro (h | h)
      · obtain ⟨rfl, -⟩ := List.cons_prefix_cons.mp h
        simp at ha
      · exact h
    · exact Or.inr

theorem append_singleton_prefix (hw : c ∉ w) (ha : c ∉ a) : w ++ [c] <+: a ++ c :: b ↔ w = a := by
  constructor
  · intro h
    have hwa : w <+: a := (prefix_append_cons hw).mp ((List.prefix_append _ _).trans h)
    obtain ⟨rest, rfl⟩ := hwa
    rw [List.append_assoc, List.prefix_append_right_inj] at h
    cases rest with
    | nil => simp
    | cons x rest =>
      obtain ⟨rfl, -⟩ := List.cons_prefix_cons.mp h
      simp at ha
  · rintro rfl
    exact ⟨b, by simp⟩

variable [DecidableEq α]

/-- The pieces with a separator on either side. -/
def between (c : α) (text : List α) : List (List α) :=
  (text.splitOn c).tail.dropLast

theorem quoted_infix_cons (hw : c ∉ w) :
    c :: (w ++ [c]) <:+: c :: text ↔ w ∈ (text.splitOn c).dropLast := by
  induction h : text.length using Nat.strong_induction_on generalizing text with
  | _ n ih =>
    by_cases hc : c ∈ text
    · obtain ⟨a, b, rfl, ha⟩ := List.eq_append_cons_of_mem hc
      have hb : c :: (w ++ [c]) <:+: c :: b ↔ w ∈ (b.splitOn c).dropLast :=
        ih b.length (by simp at h; omega) rfl
      rw [List.splitOn_append_cons_self_of_not_mem ha,
        List.dropLast_cons_of_ne_nil (List.splitOn_ne_nil _ _), List.mem_cons, ← hb,
        List.infix_cons_iff, infix_append_of_not_mem ha, List.cons_prefix_cons,
        append_singleton_prefix hw ha]
      simp
    · rw [List.splitOn_eq_singleton hc]
      have hnot : ¬ c :: (w ++ [c]) <:+: c :: text := by
        intro hocc
        rcases List.infix_cons_iff.mp hocc with hprefix | hocc
        · exact hc ((List.cons_prefix_cons.mp hprefix).2.subset (by simp))
        · exact hc (hocc.subset (by simp))
      simp [hnot]

/-- A word between two separators is a piece between two separators. -/
theorem quoted_infix_iff (hw : c ∉ w) : c :: (w ++ [c]) <:+: text ↔ w ∈ between c text := by
  unfold between
  by_cases hc : c ∈ text
  · obtain ⟨a, b, rfl, ha⟩ := List.eq_append_cons_of_mem hc
    rw [infix_append_of_not_mem ha, quoted_infix_cons hw,
      List.splitOn_append_cons_self_of_not_mem ha, List.tail_cons]
  · rw [List.splitOn_eq_singleton hc]
    constructor
    · exact fun h => absurd (h.subset (by simp)) hc
    · simp

end Infix
