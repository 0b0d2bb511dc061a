import ZimaScope.Lib.Table

/-! # Ledgers

Entries that each post an amount to an account. Accounts that are selected as
wholes are worth what is posted to them, also outside of the window that they
are selected for.
-/

namespace Ledger

variable {ε ι κ α M : Type*} {entries entries' : List ε} {amount : ε → M}

section Sums

variable [AddCommMonoid M] {p q : ε → Prop} [DecidablePred p] [DecidablePred q]

/-- What the entries that meet a condition post. -/
def sumIf (p : ε → Prop) [DecidablePred p] (amount : ε → M) (entries : List ε) : M :=
  (entries.map fun e => if p e then amount e else 0).sum

theorem sumIf_cons {e : ε} :
    sumIf p amount (e :: entries) = (if p e then amount e else 0) + sumIf p amount entries := rfl

theorem sumIf_append :
    sumIf p amount (entries ++ entries') = sumIf p amount entries + sumIf p amount entries' := by
  unfold sumIf
  rw [List.map_append, List.sum_append]

theorem sumIf_eq_filter : sumIf p amount entries = ((entries.filter p).map amount).sum := by
  induction entries with
  | nil => rfl
  | cons e entries ih =>
    rw [sumIf_cons, ih]
    by_cases hp : p e
    · rw [if_pos hp, List.filter_cons_of_pos (by simpa using hp), List.map_cons, List.sum_cons]
    · rw [if_neg hp, List.filter_cons_of_neg (by simpa using hp), zero_add]

theorem sumIf_congr (h : ∀ e ∈ entries, p e ↔ q e) :
    sumIf p amount entries = sumIf q amount entries := by
  refine congrArg List.sum (List.map_congr_left fun e he => ?_)
  simp only [h e he]

theorem sumIf_eq_zero (h : ∀ e ∈ entries, p e → amount e = 0) : sumIf p amount entries = 0 := by
  refine List.sum_eq_zero fun x hx => ?_
  obtain ⟨e, he, rfl⟩ := List.mem_map.mp hx
  split
  · next hp => exact h e he hp
  · rfl

/-- Those that also meet another condition, and those that do not. -/
theorem sumIf_split : sumIf p amount entries =
    sumIf (fun e => p e ∧ q e) amount entries + sumIf (fun e => p e ∧ ¬ q e) amount entries := by
  unfold sumIf
  rw [← List.sum_map_add]
  refine congrArg List.sum (List.map_congr_left fun e _ => ?_)
  by_cases hp : p e <;> by_cases hq : q e <;> simp [hp, hq]

theorem sumIf_map {f : ι → ε} {items : List ι} :
    sumIf p amount (items.map f) = sumIf (fun i => p (f i)) (fun i => amount (f i)) items := by
  unfold sumIf
  rw [List.map_map]
  rfl

/-- What the selected accounts of a table are worth, each with everything posted to it. -/
theorem total_sumIf [DecidableEq κ] {f : ε → κ} {t : Table κ α} {selected : κ → Prop}
    [DecidablePred selected] (h : ∀ e ∈ entries, ∃ a, t.find (f e) = some a) :
    (t.total fun k _ => if selected k then sumIf (fun e => f e = k) amount entries else 0) =
      sumIf (fun e => selected (f e)) amount entries := by
  induction entries with
  | nil => exact Table.total_eq_zero fun k _ _ => ite_self _
  | cons e entries ih =>
    obtain ⟨a, ha⟩ := h e List.mem_cons_self
    have hone : (t.total fun k _ =>
        if k = f e then (if selected k then amount e else 0) else 0) =
          if selected (f e) then amount e else 0 :=
      Table.total_of_find (g := fun k _ => if selected k then amount e else 0) ha
    rw [sumIf_cons, ← ih fun e' he' => h e' (List.mem_cons_of_mem _ he'), ← hone, ← Table.total_add]
    refine Table.total_congr fun k _ _ => ?_
    rw [sumIf_cons]
    by_cases hk : f e = k
    · subst hk
      split <;> simp
    · rw [if_neg hk, if_neg (Ne.symm hk), zero_add, zero_add]

end Sums

section Order

variable [AddCommMonoid M] [PartialOrder M] [IsOrderedAddMonoid M] {p q : ε → Prop}
  [DecidablePred p] [DecidablePred q]

theorem sumIf_nonneg (h : ∀ e ∈ entries, 0 ≤ amount e) : 0 ≤ sumIf p amount entries := by
  refine List.sum_nonneg fun x hx => ?_
  obtain ⟨e, he, rfl⟩ := List.mem_map.mp hx
  split
  · exact h e he
  · exact le_rfl

theorem sumIf_eq_zero_iff (h : ∀ e ∈ entries, 0 ≤ amount e) :
    sumIf p amount entries = 0 ↔ ∀ e ∈ entries, p e → amount e = 0 := by
  constructor
  · intro hzero
    induction entries with
    | nil => simp
    | cons e entries ih =>
      have hrest : ∀ e' ∈ entries, 0 ≤ amount e' := fun e' he' => h e' (List.mem_cons_of_mem _ he')
      have hfirst : 0 ≤ if p e then amount e else 0 := by
        split
        · exact h e List.mem_cons_self
        · exact le_rfl
      rw [sumIf_cons, add_eq_zero_iff_of_nonneg hfirst (sumIf_nonneg hrest)] at hzero
      rintro e' he' hp
      rcases List.mem_cons.mp he' with rfl | he'
      · simpa [hp] using hzero.1
      · exact ih hrest hzero.2 e' he' hp
  · exact sumIf_eq_zero

/-- Entries that each fall under one of several conditions are part of what falls under all of
them. -/
theorem sumIf_le_sum {items : List ι} {covers : ι → ε → Prop} [∀ i, DecidablePred (covers i)]
    (h : ∀ e ∈ entries, 0 ≤ amount e) (hcovers : ∀ e ∈ entries, p e → ∃ i ∈ items, covers i e) :
    sumIf p amount entries ≤ (items.map fun i => sumIf (covers i) amount entries).sum := by
  induction entries with
  | nil => exact List.sum_nonneg fun x hx => (List.mem_map.mp hx).elim fun _ hx => hx.2 ▸ le_rfl
  | cons e entries ih =>
    have hamount : 0 ≤ amount e := h e List.mem_cons_self
    have hterm : ∀ x ∈ items.map fun i => if covers i e then amount e else 0, 0 ≤ x := by
      intro x hx
      obtain ⟨i, -, rfl⟩ := List.mem_map.mp hx
      split
      · exact hamount
      · exact le_rfl
    have hfirst : (if p e then amount e else 0) ≤
        (items.map fun i => if covers i e then amount e else 0).sum := by
      split
      · next hp =>
        obtain ⟨i, hi, hcover⟩ := hcovers e List.mem_cons_self hp
        apply List.single_le_sum hterm
        exact List.mem_map.mpr ⟨i, hi, if_pos hcover⟩
      · exact List.sum_nonneg hterm
    simp only [sumIf_cons, List.sum_map_add]
    exact add_le_add hfirst (ih (fun e' he' => h e' (List.mem_cons_of_mem _ he'))
      fun e' he' => hcovers e' (List.mem_cons_of_mem _ he'))

end Order

section Window

variable [AddCommGroup M] [PartialOrder M] [IsOrderedAddMonoid M] {chosen inside : ε → Prop}
  [DecidablePred chosen] [DecidablePred inside]

/-- When whatever is posted inside of a window is chosen, what is chosen is worth what is posted
inside exactly if nothing else is chosen. -/
theorem sumIf_eq_iff (h : ∀ e ∈ entries, 0 ≤ amount e)
    (hchosen : ∀ e ∈ entries, inside e → amount e ≠ 0 → chosen e) :
    sumIf chosen amount entries = sumIf inside amount entries ↔
      ∀ e ∈ entries, chosen e → ¬ inside e → amount e = 0 := by
  have hinside : sumIf (fun e => inside e ∧ ¬ chosen e) amount entries = 0 := by
    refine sumIf_eq_zero fun e he hp => ?_
    by_contra hne
    exact hp.2 (hchosen e he hp.1 hne)
  have hboth : sumIf (fun e => inside e ∧ chosen e) amount entries =
      sumIf (fun e => chosen e ∧ inside e) amount entries := sumIf_congr fun _ _ => and_comm
  rw [sumIf_split (p := chosen) (q := inside), sumIf_split (p := inside) (q := chosen), hinside,
    hboth, add_right_inj, sumIf_eq_zero_iff h]
  simp only [and_imp]

end Window

end Ledger
