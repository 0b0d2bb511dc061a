import Mathlib.Data.List.Infix

/-! # Framing

Chunks in a stream: a line that announces a length, the line end, that many letters,
and the line end again. The line end is a pair of different letters, so the first
occurrence of it ends a line.
-/

namespace Framing

variable {α : Type*} {a b : α} {line text rest : List α}

/-! ## Lines -/

section Lines

variable [DecidableEq α]

/-- The position of the first pair of letters. -/
def pairIndex (a b : α) : List α → Option ℕ
  | x :: y :: text => if x = a ∧ y = b then some 0 else (pairIndex a b (y :: text)).map (· + 1)
  | _ => none

theorem pairIndex_append (hab : a ≠ b) (hline : ¬ [a, b] <:+: line) :
    pairIndex a b (line ++ a :: b :: rest) = some line.length := by
  induction line with
  | nil =>
    rw [List.nil_append, pairIndex, if_pos ⟨rfl, rfl⟩]
    rfl
  | cons x line ih =>
    have htail := ih fun h => hline (h.trans (List.suffix_cons x line).isInfix)
    cases line with
    | nil =>
      rw [List.nil_append] at htail
      rw [List.singleton_append, pairIndex, if_neg fun h => hab h.2, htail]
      rfl
    | cons y line =>
      have hpair : ¬ (x = a ∧ y = b) := by
        rintro ⟨rfl, rfl⟩
        exact hline (List.prefix_append [x, y] line).isInfix
      rw [List.cons_append] at htail
      rw [List.cons_append, List.cons_append, pairIndex, if_neg hpair, htail]
      rfl

theorem pairIndex_eq_none : pairIndex a b text = none ↔ ¬ [a, b] <:+: text := by
  induction text with
  | nil =>
    rw [List.infix_nil]
    exact ⟨fun _ => List.cons_ne_nil _ _, fun _ => rfl⟩
  | cons x text ih =>
    cases text with
    | nil =>
      refine ⟨fun _ h => ?_, fun _ => rfl⟩
      exact absurd h.length_le (by simp)
    | cons y text =>
      rw [List.infix_cons_iff, not_or, ← ih, List.cons_prefix_cons, List.cons_prefix_cons, pairIndex]
      by_cases hpair : x = a ∧ y = b
      · rw [if_pos hpair]
        refine iff_of_false (Option.some_ne_none 0) fun h => h.1 ?_
        exact ⟨hpair.1.symm, hpair.2.symm, List.nil_prefix⟩
      · rw [if_neg hpair, Option.map_eq_none_iff]
        refine ⟨fun h => ⟨fun hpair' => hpair ⟨hpair'.1.symm, hpair'.2.1.symm⟩, h⟩, And.right⟩

/-- A text without a line, or its first line and what is behind it. -/
theorem exists_line (text : List α) : pairIndex a b text = none ∨
    ∃ line rest, text = line ++ a :: b :: rest ∧ ¬ [a, b] <:+: line := by
  by_cases hpair : [a, b] <:+: text
  · right
    induction text with
    | nil => exact absurd (List.infix_nil.mp hpair) (by simp)
    | cons x text ih =>
      by_cases hprefix : [a, b] <+: x :: text
      · obtain ⟨rest, hrest⟩ := hprefix
        exact ⟨[], rest, hrest.symm, fun h => absurd (List.infix_nil.mp h) (by simp)⟩
      · obtain ⟨line, rest, rfl, hline⟩ := ih ((List.infix_cons_iff.mp hpair).resolve_left hprefix)
        refine ⟨x :: line, rest, rfl, fun h => ?_⟩
        rcases List.infix_cons_iff.mp h with hprefix' | hinfix
        · exact hprefix (hprefix'.trans (List.prefix_append _ _))
        · exact hline hinfix
  · exact Or.inl (pairIndex_eq_none.mpr hpair)

end Lines

/-- What is cut from a line before its end is complete has no line end. -/
theorem not_infix_of_cut (hab : a ≠ b) (hline : ¬ [a, b] <:+: line) (h : text <+: line ++ [a, b])
    (hne : text ≠ line ++ [a, b]) : ¬ [a, b] <:+: text := by
  have hinit : text <+: line ++ [a] := by
    have hsplit : line ++ [a, b] = (line ++ [a]) ++ [b] := by
      rw [List.append_assoc, List.singleton_append]
    rw [hsplit] at h hne
    exact (List.prefix_concat_iff.mp h).resolve_left hne
  intro hpair
  obtain ⟨before, behind, heq⟩ := hpair.trans hinit.isInfix
  rcases List.eq_nil_or_concat behind with rfl | ⟨behind, z, rfl⟩
  · rw [List.append_nil] at heq
    have hlast := congrArg List.getLast? heq
    rw [List.getLast?_append, List.getLast?_concat] at hlast
    exact hab (Option.some.inj hlast).symm
  · have heq' : (before ++ [a, b] ++ behind) ++ [z] = line ++ [a] := by
      rw [← heq, List.concat_eq_append, List.append_assoc _ behind]
    exact hline ⟨before, behind, (List.append_inj' heq' rfl).1⟩

theorem prefix_append_cases {p x y : List α} (h : p <+: x ++ y) :
    (p <+: x ∧ p ≠ x) ∨ ∃ r, p = x ++ r ∧ r <+: y := by
  rcases List.prefix_or_prefix_of_prefix h (List.prefix_append x y) with hp | ⟨r, rfl⟩
  · by_cases heq : p = x
    · exact Or.inr ⟨[], by rw [heq, List.append_nil], List.nil_prefix⟩
    · exact Or.inl ⟨hp, heq⟩
  · exact Or.inr ⟨r, rfl, (List.prefix_append_right_inj x).mp h⟩

/-! ## Frames -/

/-- The text is the chunks, each behind a line that announces its length. -/
inductive Frames (a b : α) (Line : List α → ℕ → Prop) : List (List α) → List α → Prop
  | nil : Frames a b Line [] []
  | cons {line chunk : List α} {chunks : List (List α)} {text : List α} (hline : Line line chunk.length)
      (hne : chunk ≠ []) (htext : Frames a b Line chunks text) :
      Frames a b Line (chunk :: chunks) (line ++ a :: b :: (chunk ++ a :: b :: text))

namespace Frames

variable {Line Line' : List α → ℕ → Prop} {chunks chunks' : List (List α)} {text' p : List α}

theorem append (h : Frames a b Line chunks text) (h' : Frames a b Line chunks' text') :
    Frames a b Line (chunks ++ chunks') (text ++ text') := by
  induction h with
  | nil => exact h'
  | @cons line chunk chunks text hline hne _ ih =>
    have htext : line ++ a :: b :: (chunk ++ a :: b :: text) ++ text' =
        line ++ a :: b :: (chunk ++ a :: b :: (text ++ text')) := by
      simp only [List.append_assoc, List.cons_append]
    rw [htext, List.cons_append]
    exact .cons hline hne ih

/-- One more chunk. -/
theorem snoc {chunk : List α} (h : Frames a b Line chunks text) (hline : Line line chunk.length)
    (hne : chunk ≠ []) :
    Frames a b Line (chunks ++ [chunk]) (text ++ (line ++ a :: b :: (chunk ++ [a, b]))) :=
  h.append (.cons hline hne .nil)

theorem imp (h : Frames a b Line chunks text)
    (himp : ∀ line n, n ≤ text.length → Line line n → Line' line n) : Frames a b Line' chunks text := by
  induction h with
  | nil => exact .nil
  | cons hline hne _ ih =>
    refine .cons (himp _ _ ?_ hline) hne (ih fun line n hn => himp line n (hn.trans ?_))
    all_goals
      simp only [List.length_append, List.length_cons]
      omega

/-- A text that is cut before its last line ends: whole chunks, and then a part of a line, or a line and
a part of its chunk. -/
theorem cut (h : Frames a b Line chunks text) (hp : p <+: text ++ (line ++ [a, b]))
    (hne : p ≠ text ++ (line ++ [a, b])) :
    ∃ chunks' text' q, Frames a b Line chunks' text' ∧ p = text' ++ q ∧
      ((∃ line', (line' = line ∨ ∃ n, Line line' n) ∧ q <+: line' ++ [a, b] ∧ q ≠ line' ++ [a, b]) ∨
        ∃ line' chunk r, Line line' chunk.length ∧ chunk ≠ [] ∧ q = line' ++ a :: b :: r ∧
          r <+: chunk ++ [a, b] ∧ r ≠ chunk ++ [a, b]) := by
  induction h generalizing p with
  | nil => exact ⟨[], [], p, .nil, rfl, Or.inl ⟨line, Or.inl rfl, hp, hne⟩⟩
  | @cons line₀ chunk chunks text hline hchunk htext ih =>
    have hwhole : line₀ ++ a :: b :: (chunk ++ a :: b :: text) ++ (line ++ [a, b]) =
        (line₀ ++ [a, b]) ++ ((chunk ++ [a, b]) ++ (text ++ (line ++ [a, b]))) := by
      simp only [List.append_assoc, List.cons_append, List.nil_append]
    rw [hwhole] at hp hne
    rcases prefix_append_cases hp with ⟨hp, hne'⟩ | ⟨r, rfl, hr⟩
    · exact ⟨[], [], p, .nil, rfl, Or.inl ⟨line₀, Or.inr ⟨_, hline⟩, hp, hne'⟩⟩
    · rcases prefix_append_cases hr with ⟨hr, hne'⟩ | ⟨p', rfl, hp'⟩
      · refine ⟨[], [], (line₀ ++ [a, b]) ++ r, .nil, rfl,
          Or.inr ⟨line₀, chunk, r, hline, hchunk, ?_, hr, hne'⟩⟩
        rw [List.append_assoc, List.cons_append, List.singleton_append]
      · obtain ⟨chunks', text', q, hframes, rfl, hq⟩ :=
          ih hp' fun heq => hne (by rw [heq])
        refine ⟨chunk :: chunks', _, q, .cons hline hchunk hframes, ?_, hq⟩
        simp only [List.append_assoc, List.cons_append, List.nil_append]

end Frames

end Framing
