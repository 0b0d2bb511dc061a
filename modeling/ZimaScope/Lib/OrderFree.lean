import Mathlib.Algebra.Order.BigOperators.Group.Multiset
import Mathlib.Data.Multiset.Lattice
import Mathlib.Order.WithBot

/-! # Folds in any order

Left folds that come to a value of the multiset of what they fold: a sum that saturates,
a minimum that is a sentinel before anything was seen, and a maximum.
-/

namespace OrderFree

section Saturation

variable {α : Type*} [AddCommMonoid α] [LinearOrder α] [CanonicallyOrderedAdd α] {a m : α}

theorem min_min_add (a m s : α) : min (min a m + s) m = min (a + s) m := by
  rcases le_total a m with h | h
  · rw [min_eq_left h]
  · rw [min_eq_right h, min_eq_right le_self_add, min_eq_right (h.trans le_self_add)]

/-- A sum that saturates on the way is the whole sum, saturated. -/
theorem foldl_saturating (h : a ≤ m) (xs : List α) :
    xs.foldl (fun a x => min (a + x) m) a = min (a + (xs : Multiset α).sum) m := by
  induction xs generalizing a with
  | nil => simp [h]
  | cons x xs ih =>
    rw [List.foldl_cons, ih (min_le_right _ _), min_min_add, ← Multiset.cons_coe,
      Multiset.sum_cons, add_assoc]

end Saturation

section Lattice

variable {α : Type*}

theorem foldl_sup [SemilatticeSup α] [OrderBot α] (a : α) (xs : List α) :
    xs.foldl (· ⊔ ·) a = a ⊔ (xs : Multiset α).sup := by
  induction xs generalizing a with
  | nil => simp
  | cons x xs ih => rw [List.foldl_cons, ih, ← Multiset.cons_coe, Multiset.sup_cons, sup_assoc]

variable [LinearOrder α] {z m : α} {xs : List α}

/-- A minimum that is `z` before anything was seen. -/
def earlier (z m x : α) : α := if m = z ∨ x < m then x else m

theorem earlier_self (x : α) : earlier z z x = x := if_pos (Or.inl rfl)

theorem earlier_of_ne (h : m ≠ z) (x : α) : earlier z m x = min m x := by
  unfold earlier
  rcases le_or_gt m x with hle | hlt
  · rw [min_eq_left hle, if_neg (not_or.mpr ⟨h, not_lt.mpr hle⟩)]
  · rw [min_eq_right hlt.le, if_pos (Or.inr hlt)]

/-- The least element; there is none of the empty multiset. -/
def least (s : Multiset α) : WithTop α := (s.map (↑·)).inf

theorem least_cons_cons (x y : α) (s : Multiset α) :
    least (x ::ₘ y ::ₘ s) = least (min x y ::ₘ s) := by
  unfold least
  simp only [Multiset.map_cons, Multiset.inf_cons, WithTop.coe_min, inf_assoc]

theorem foldl_earlier_of_ne (hm : m ≠ z) (h : ∀ x ∈ xs, x ≠ z) :
    (xs.foldl (earlier z) m : α) = least (m ::ₘ ↑xs) := by
  induction xs generalizing m with
  | nil => simp [least]
  | cons x xs ih =>
    have hx := h x List.mem_cons_self
    have hmin : min m x ≠ z := by
      rcases min_choice m x with heq | heq
      · rwa [heq]
      · rwa [heq]
    rw [List.foldl_cons, earlier_of_ne hm, ih hmin fun y hy => h y (List.mem_cons_of_mem x hy),
      ← Multiset.cons_coe, least_cons_cons]

/-- Of elements that are not the sentinel it is the least, or the sentinel if there is none. -/
theorem foldl_earlier (h : ∀ x ∈ xs, x ≠ z) :
    xs.foldl (earlier z) z = (least (xs : Multiset α)).untopD z := by
  cases xs with
  | nil => simp [least]
  | cons x xs =>
    rw [List.foldl_cons, earlier_self, ← Multiset.cons_coe,
      ← foldl_earlier_of_ne (h x List.mem_cons_self) fun y hy => h y (List.mem_cons_of_mem x hy),
      WithTop.untopD_coe]

end Lattice

end OrderFree
