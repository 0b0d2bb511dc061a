import Mathlib.Data.List.Basic
import Mathlib.Data.List.Flatten

/-! # Lines and columns

A text cut into lines at every line end, and a line cut into the words between its blanks. What is
read from a text does not depend on how its words are spaced.
-/

namespace Columns

variable {α : Type*}

/-! ## Words -/

section Words

variable (blank : α → Bool)

/-- The words between the blanks. -/
def words (line : List α) : List (List α) := (line.splitOnP blank).filter (· ≠ [])

/-- A word that can stand in a line. -/
structure IsWord (word : List α) : Prop where
  ne_nil : word ≠ []
  solid : ∀ c ∈ word, blank c = false

/-- A line that holds these words, with blanks between them and around them. -/
inductive Spaced : List (List α) → List α → Prop
  | nil : Spaced [] []
  | blank {words : List (List α)} {line : List α} {c : α} (hc : blank c) (h : Spaced words line) :
      Spaced words (c :: line)
  | last {word : List α} (hword : IsWord blank word) : Spaced [word] word
  | word {words : List (List α)} {word line : List α} {c : α} (hword : IsWord blank word)
      (hc : blank c) (h : Spaced words line) : Spaced (word :: words) (word ++ c :: line)

variable {blank}

theorem words_nil : words blank [] = [] := by
  unfold words
  simp [List.splitOnP_nil]

theorem words_blank {c : α} (hc : blank c) (line : List α) : words blank (c :: line) = words blank line := by
  unfold words
  rw [List.splitOnP_cons_eq_if_modifyHead, if_pos hc]
  rfl

theorem words_word {word : List α} (h : IsWord blank word) : words blank word = [word] := by
  unfold words
  rw [List.splitOnP_eq_singleton h.solid]
  exact List.filter_cons_of_pos (decide_eq_true h.ne_nil)

theorem words_append {word : List α} (h : IsWord blank word) {c : α} (hc : blank c) (line : List α) :
    words blank (word ++ c :: line) = word :: words blank line := by
  unfold words
  rw [List.splitOnP_append_cons_of_forall_mem h.solid c hc]
  exact List.filter_cons_of_pos (decide_eq_true h.ne_nil)

/-- The words are read back, whatever the spacing. -/
theorem Spaced.words_eq {parts : List (List α)} {line : List α} (h : Spaced blank parts line) :
    words blank line = parts := by
  induction h with
  | nil => exact words_nil
  | blank hc _ ih => exact (words_blank hc _).trans ih
  | last hword => exact words_word hword
  | word hword hc _ ih => exact (words_append hword hc _).trans (congrArg _ ih)

/-- Words between single blanks. -/
theorem spaced_intercalate {c : α} (hc : blank c) {parts : List (List α)}
    (h : ∀ part ∈ parts, IsWord blank part) : Spaced blank parts ([c].intercalate parts) := by
  induction parts with
  | nil => exact .nil
  | cons part parts ih =>
    have hpart := h part List.mem_cons_self
    cases parts with
    | nil =>
      rw [List.intercalate_singleton]
      exact .last hpart
    | cons next parts =>
      rw [List.intercalate_cons_of_ne_nil (List.cons_ne_nil _ _), List.append_assoc]
      exact .word hpart hc (ih fun other hother => h other (List.mem_cons_of_mem _ hother))

end Words

/-! ## Lines -/

section Lines

variable [DecidableEq α] (newline ret : α)

/-- A line without the return before its end. -/
def chomp (line : List α) : List α := if line.getLast? = some ret then line.dropLast else line

/-- The lines of a text. A return belongs to a line end that it stands before; the end of the text
ends a line that holds something. -/
def lines (text : List α) : List (List α) :=
  let parts := text.splitOn newline
  (parts.dropLast).map (chomp ret) ++ (parts.getLast?.filter (· ≠ [])).toList

/-- Every line with its end. -/
def unlines (parts : List (List α)) : List α := parts.flatMap (· ++ [newline])

/-- A line that can stand in a text. -/
structure IsLine (line : List α) : Prop where
  noNewline : newline ∉ line
  noReturn : line.getLast? ≠ some ret

variable {newline ret}

theorem splitOn_unlines {parts : List (List α)} (h : ∀ line ∈ parts, newline ∉ line) :
    (unlines newline parts).splitOn newline = parts ++ [[]] := by
  induction parts with
  | nil => rfl
  | cons line parts ih =>
    have hline : ∀ c ∈ line, (c == newline) = false := by
      intro c hc
      rw [beq_eq_false_iff_ne]
      rintro rfl
      exact h line List.mem_cons_self hc
    have hrest := ih fun other hother => h other (List.mem_cons_of_mem _ hother)
    rw [List.splitOn_eq_splitOnP] at hrest ⊢
    change ((line ++ [newline]) ++ unlines newline parts).splitOnP _ = _
    rw [List.append_assoc, List.singleton_append,
      List.splitOnP_append_cons_of_forall_mem hline newline (beq_self_eq_true _), hrest]
    rfl

/-- The lines are read back. -/
theorem lines_unlines {parts : List (List α)} (h : ∀ line ∈ parts, IsLine newline ret line) :
    lines newline ret (unlines newline parts) = parts := by
  have hchomp : ∀ line ∈ parts, chomp ret line = id line :=
    fun line hline => if_neg (h line hline).noReturn
  unfold lines
  rw [splitOn_unlines fun line hline => (h line hline).noNewline]
  simp only [List.dropLast_concat, List.getLast?_concat]
  rw [List.map_congr_left hchomp, List.map_id]
  exact List.append_nil _

end Lines

end Columns
