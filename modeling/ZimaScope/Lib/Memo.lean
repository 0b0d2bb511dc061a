import ZimaScope.Lib.Table

/-! # Bounded memo tables

A memo keeps values under keys that are narrower than the inputs they were computed
from, and is dropped when it is full. Beside it runs the table of the inputs that
the kept values come from: an answer is the value of that input.
-/

namespace Memo

variable {ι κ α : Type*} [DecidableEq κ] (capacity : ℕ) (key : ι → κ)

/-- Answers for an input, from the memo if it has the key. -/
def answer (value : ι → α) (memo : Table κ α) (i : ι) : α × Table κ α :=
  match memo.find (key i) with
  | some a => (a, memo)
  | none =>
    let memo := if capacity ≤ memo.rows.length then ∅ else memo
    (value i, memo.upsert (key i) fun _ => value i)

/-- The inputs that were computed and are not dropped yet. -/
def remember (inputs : Table κ ι) (i : ι) : Table κ ι := (answer capacity key id inputs i).2

/-- The memo has the values of the inputs. -/
def Keeps (value : ι → α) (inputs : Table κ ι) (memo : Table κ α) : Prop :=
  memo.rows = inputs.rows.map fun r => (r.1, value r.2)

variable {capacity key} {value : ι → α} {inputs : Table κ ι} {memo : Table κ α} {i : ι} {k : κ}

theorem remember_eq : remember capacity key inputs i =
    if (inputs.find (key i)).isSome then inputs
    else (if capacity ≤ inputs.rows.length then ∅ else inputs).upsert (key i) fun _ => i := by
  unfold remember answer
  cases inputs.find (key i) <;> rfl

theorem Keeps.find (h : Keeps value inputs memo) : memo.find k = (inputs.find k).map value := by
  unfold Table.find
  rw [h, List.find?_map, Option.map_map, Option.map_map]
  rfl

theorem Keeps.upsert (h : Keeps value inputs memo) (hnone : inputs.find k = none) :
    Keeps value (inputs.upsert k fun _ => i) (memo.upsert k fun _ => value i) := by
  have hnone' : memo.find k = none := by rw [h.find, hnone, Option.map_none]
  unfold Keeps Table.upsert
  rw [dif_pos hnone, dif_pos hnone']
  change memo.rows ++ [(k, value i)] = (inputs.rows ++ [(k, i)]).map fun r => (r.1, value r.2)
  rw [h, List.map_append]
  rfl

theorem Keeps.answer (h : Keeps value inputs memo) :
    (answer capacity key value memo i).1 = value ((inputs.find (key i)).getD i) ∧
      Keeps value (remember capacity key inputs i) (answer capacity key value memo i).2 := by
  have hfind := @Keeps.find ι κ α _ value inputs memo (key i) h
  rw [remember_eq]
  unfold Memo.answer
  cases hinput : inputs.find (key i) with
  | some filler =>
    rw [hinput, Option.map_some] at hfind
    rw [hfind, if_pos Option.isSome_some]
    exact ⟨rfl, h⟩
  | none =>
    rw [hinput, Option.map_none] at hfind
    have hlength : memo.rows.length = inputs.rows.length := by rw [h, List.length_map]
    have hmiss : ¬ (none : Option ι).isSome = true := Bool.false_ne_true
    rw [hfind, if_neg hmiss]
    refine ⟨rfl, ?_⟩
    dsimp only
    rw [hlength]
    split
    · have hempty : Keeps value (∅ : Table κ ι) ∅ := rfl
      exact hempty.upsert rfl
    · exact h.upsert hinput

/-! ## Runs -/

variable (capacity key value) in
/-- The memo after the inputs. -/
def after (inputs : List ι) : Table κ α :=
  inputs.foldl (fun memo i => (answer capacity key value memo i).2) ∅

variable (capacity key) in
/-- The inputs that the memo has after the inputs. -/
def remembered (inputs : List ι) : Table κ ι := inputs.foldl (remember capacity key) ∅

theorem keeps_after (before : List ι) :
    Keeps value (remembered capacity key before) (after capacity key value before) := by
  induction before using List.reverseRecOn with
  | nil => rfl
  | append_singleton before i ih =>
    unfold remembered after
    rw [List.foldl_append, List.foldl_append]
    exact ih.answer.2

/-- An input is remembered under its key. -/
theorem key_of_find {before : List ι} {filler : ι}
    (h : (remembered capacity key before).find k = some filler) : key filler = k := by
  induction before using List.reverseRecOn with
  | nil => cases h
  | append_singleton before i ih =>
    unfold remembered at h
    rw [List.foldl_append, List.foldl_cons, List.foldl_nil, remember_eq] at h
    split at h
    next => exact ih h
    next =>
      by_cases hk : k = key i
      · rw [hk, Table.find_upsert_self, Option.some.injEq] at h
        rw [hk, h]
      · rw [Table.find_upsert_of_ne hk] at h
        split at h
        · cases h
        · exact ih h

/-- What is answered is the value of the input that filled the memo. -/
theorem answer_after (before : List ι) :
    (answer capacity key value (after capacity key value before) i).1 =
      value (((remembered capacity key before).find (key i)).getD i) :=
  (keeps_after before).answer.1

end Memo
