import Mathlib.Data.List.MinMax
import Mathlib.Data.List.Sort

/-! # Least items

The first item of a stable sort that a predicate holds for is the first of the least ones that it
holds for.
-/

namespace List

variable {α β : Type*} [LinearOrder β] {key : α → β} {p : α → Bool} {a : α} {l : List α}

theorem find?_orderedInsert_of_neg (ha : p a = false) :
    (l.orderedInsert (fun a b => key a ≤ key b) a).find? p = l.find? p := by
  induction l with
  | nil => simp [ha]
  | cons b l ih =>
    rw [orderedInsert_cons]
    split
    · rw [find?_cons_of_neg (by simp [ha])]
    · rw [find?_cons, find?_cons, ih]

theorem find?_orderedInsert_of_pos (hl : l.Pairwise fun a b => key a ≤ key b) (ha : p a) :
    (l.orderedInsert (fun a b => key a ≤ key b) a).find? p =
      (l.find? p).elim (some a) fun c => if key c < key a then some c else some a := by
  induction l with
  | nil => simp [ha]
  | cons b l ih =>
    obtain ⟨hb, hl⟩ := pairwise_cons.mp hl
    rw [orderedInsert_cons]
    split
    · next hab =>
      rw [find?_cons_of_pos ha]
      cases hfind : (b :: l).find? p with
      | none => rfl
      | some c =>
        have hbc : key b ≤ key c := by
          rcases mem_cons.mp (mem_of_find?_eq_some hfind) with rfl | hc
          · exact le_rfl
          · exact hb c hc
        exact (if_neg (hab.trans hbc).not_gt).symm
    · next hab =>
      cases hpb : p b with
      | true =>
        rw [find?_cons_of_pos hpb, find?_cons_of_pos hpb]
        exact (if_pos (not_le.mp hab)).symm
      | false =>
        rw [find?_cons_of_neg (by simp [hpb]), find?_cons_of_neg (by simp [hpb])]
        exact ih hl

theorem find?_insertionSort (key : α → β) (p : α → Bool) (l : List α) :
    (l.insertionSort fun a b => key a ≤ key b).find? p = (l.filter p).argmin key := by
  induction l with
  | nil => rfl
  | cons a l ih =>
    rw [insertionSort_cons]
    cases ha : p a with
    | false => rw [find?_orderedInsert_of_neg ha, ih, filter_cons_of_neg (by simp [ha])]
    | true =>
      rw [find?_orderedInsert_of_pos (pairwise_insertionSort _ l) ha, ih, filter_cons_of_pos ha,
        argmin_cons]
      cases (l.filter p).argmin key <;> rfl

end List
