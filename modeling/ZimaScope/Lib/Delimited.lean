import Mathlib.Data.List.Infix

/-! # Words between delimiters

A list cut at every occurrence of a delimiter. A word between two delimiters
occurs in it where the parts of the word follow one another among the parts of
the list.
-/

namespace List

variable {α : Type*} {a : α} {l l' : List (List α)}

theorem intercalate_append (h : l ≠ []) (h' : l' ≠ []) :
    [a].intercalate (l ++ l') = [a].intercalate l ++ a :: [a].intercalate l' := by
  induction l with
  | nil => exact absurd rfl h
  | cons part l ih =>
    cases l with
    | nil => rw [singleton_append, intercalate_cons_of_ne_nil h', intercalate_singleton, append_assoc]; rfl
    | cons part' l =>
      rw [cons_append, intercalate_cons_of_ne_nil (cons_ne_nil _ _),
        intercalate_cons_of_ne_nil (by simp), ih (cons_ne_nil _ _)]
      simp only [append_assoc]

theorem mem_intercalate {c : α} (h : c ∈ [a].intercalate l) : c = a ∨ ∃ part ∈ l, c ∈ part := by
  induction l with
  | nil => cases h
  | cons part l ih =>
    by_cases hl : l = []
    · subst hl
      rw [intercalate_singleton] at h
      exact .inr ⟨part, mem_cons_self, h⟩
    · rw [intercalate_cons_of_ne_nil hl, mem_append, mem_append, mem_singleton] at h
      rcases h with (h | rfl) | h
      · exact .inr ⟨part, mem_cons_self, h⟩
      · exact .inl rfl
      · rcases ih h with rfl | ⟨part', hpart', hc⟩
        · exact .inl rfl
        · exact .inr ⟨part', mem_cons_of_mem _ hpart', hc⟩

theorem subset_intercalate {part : List α} (h : part ∈ l) : part ⊆ [a].intercalate l := by
  induction l with
  | nil => cases h
  | cons part' l ih =>
    by_cases hl : l = []
    · subst hl
      rw [mem_singleton] at h
      rw [h, intercalate_singleton]
      exact Subset.refl _
    · rw [intercalate_cons_of_ne_nil hl]
      rcases mem_cons.mp h with rfl | h
      · exact fun c hc => mem_append_left _ (mem_append_left _ hc)
      · exact fun c hc => mem_append_right _ (ih h hc)

/-- The last delimiter tells what is before it from what is behind it. -/
theorem append_cons_inj_of_notMem_behind {before before' behind behind' : List α} (h : a ∉ behind)
    (h' : a ∉ behind') :
    before ++ a :: behind = before' ++ a :: behind' ↔ before = before' ∧ behind = behind' := by
  constructor
  · intro heq
    rcases append_eq_append_iff.mp heq with ⟨between, hbefore, hbehind⟩ | ⟨between, hbefore, hbehind⟩
    · cases between with
      | nil => exact ⟨by simpa using hbefore.symm, (cons.inj hbehind).2⟩
      | cons c between =>
        obtain ⟨-, rfl⟩ := cons.inj hbehind
        simp at h
    · cases between with
      | nil => exact ⟨by simpa using hbefore, (cons.inj hbehind).2.symm⟩
      | cons c between =>
        obtain ⟨-, rfl⟩ := cons.inj hbehind
        simp at h'
  · rintro ⟨rfl, rfl⟩
    rfl

/-- So does the first one. -/
theorem append_cons_inj_of_notMem_before {before before' behind behind' : List α} (h : a ∉ before)
    (h' : a ∉ before') :
    before ++ a :: behind = before' ++ a :: behind' ↔ before = before' ∧ behind = behind' := by
  constructor
  · intro heq
    rcases append_eq_append_iff.mp heq with ⟨between, hbefore, hbehind⟩ | ⟨between, hbefore, hbehind⟩
    · cases between with
      | nil => exact ⟨by simpa using hbefore.symm, (cons.inj hbehind).2⟩
      | cons c between =>
        obtain ⟨rfl, -⟩ := cons.inj hbehind
        simp [hbefore] at h'
    · cases between with
      | nil => exact ⟨by simpa using hbefore, (cons.inj hbehind).2.symm⟩
      | cons c between =>
        obtain ⟨rfl, -⟩ := cons.inj hbehind
        simp [hbefore] at h
  · rintro ⟨rfl, rfl⟩
    rfl

variable [BEq α] [LawfulBEq α] {word text : List α}

theorem intercalate_inj (h : ∀ part ∈ l, a ∉ part ∧ part ≠ [])
    (h' : ∀ part ∈ l', a ∉ part ∧ part ≠ []) (heq : [a].intercalate l = [a].intercalate l') :
    l = l' := by
  have hsplit : ∀ {l : List (List α)}, (∀ part ∈ l, a ∉ part ∧ part ≠ []) → l ≠ [] →
      ([a].intercalate l).splitOn a = l := fun hl hne =>
    splitOn_intercalate a (fun part hpart => (hl part hpart).1) hne
  have hempty : ∀ {l : List (List α)}, (∀ part ∈ l, a ∉ part ∧ part ≠ []) →
      [a].intercalate l = [] → l = [] := by
    intro l hl hnil
    by_contra hne
    have hparts := hsplit hl hne
    rw [hnil, splitOn_nil] at hparts
    exact (hl [] (hparts ▸ mem_singleton_self [])).2 rfl
  by_cases hl : l = []
  · subst hl
    exact (hempty h' heq.symm).symm
  · have hl' : l' ≠ [] := fun hnil => hl (hempty h (heq.trans (by rw [hnil]; rfl)))
    rw [← hsplit h hl, heq, hsplit h' hl']

theorem subset_of_mem_splitOn {part : List α} (h : part ∈ text.splitOn a) : part ⊆ text := by
  have hsubset : part ⊆ [a].intercalate (text.splitOn a) := subset_intercalate h
  rwa [intercalate_splitOn] at hsubset

/-- The parts that have a delimiter before and behind them. -/
def innerParts (a : α) (text : List α) : List (List α) := (text.splitOn a).tail.dropLast

theorem innerParts_append_cons {before behind : List α} :
    (before ++ a :: (text ++ a :: behind)).innerParts a =
      (before.splitOn a).tail ++ text.splitOn a ++ (behind.splitOn a).dropLast := by
  have htext : text.splitOn a ≠ [] := splitOn_ne_nil a text
  unfold innerParts
  rw [splitOn_append_cons_self, splitOn_append_cons_self, tail_append_of_ne_nil (splitOn_ne_nil a before),
    ← append_assoc, dropLast_append_of_ne_nil (splitOn_ne_nil a behind)]

theorem delimited_infix_iff :
    a :: word ++ [a] <:+: text ↔ word.splitOn a <:+: text.innerParts a := by
  constructor
  · rintro ⟨before, behind, rfl⟩
    have htext : before ++ (a :: word ++ [a]) ++ behind = before ++ a :: (word ++ a :: behind) := by simp
    rw [htext, innerParts_append_cons]
    exact infix_append _ _ _
  · rintro ⟨before, behind, hparts⟩
    have hword : word.splitOn a ≠ [] := splitOn_ne_nil a word
    obtain ⟨first, rest, hfirst⟩ := exists_cons_of_ne_nil (splitOn_ne_nil a text)
    unfold innerParts at hparts
    rw [hfirst, tail_cons] at hparts
    have hrest : rest ≠ [] := by
      rintro rfl
      simp [hword] at hparts
    have htext : [a].intercalate (text.splitOn a) = text := intercalate_splitOn a
    rw [hfirst, ← dropLast_append_getLast hrest, ← hparts, append_assoc, append_assoc, ← cons_append,
      intercalate_append (cons_ne_nil _ _) (by simp [hword]),
      intercalate_append hword (by simp), intercalate_splitOn] at htext
    refine ⟨[a].intercalate (first :: before), [a].intercalate (behind ++ [rest.getLast hrest]), ?_⟩
    simpa using htext

end List
