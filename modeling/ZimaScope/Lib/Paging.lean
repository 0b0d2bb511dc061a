import Mathlib.Data.List.Sort
import Mathlib.Data.List.Perm.Basic

/-! # Pages of an ordered list

A list is served in some order that respects a total preorder, a page at a
time, and every request may order equal items anew. The pages then partition
the items, whatever the orders, exactly when no class of equal items lies
across the boundary of two pages.
-/

namespace Paging

open List

variable {α : Type*}

/-- The page `k` of a list, with `n` items a page. -/
def page (n k : ℕ) (l : List α) : List α := (l.drop (k * n)).take n

/-- The first pages, one after the other, each of the list that its request is served. -/
def pages (n count : ℕ) (serve : ℕ → List α) : List α :=
  (range count).flatMap fun k => page n k (serve k)

section Pages

variable {n count k : ℕ} {l : List α} {serve serve' : ℕ → List α}

theorem pages_succ : pages n (count + 1) serve = pages n count serve ++ page n count (serve count) := by
  unfold pages
  rw [range_succ, flatMap_append, flatMap_singleton]

theorem pages_congr (h : ∀ k < count, serve k = serve' k) :
    pages n count serve = pages n count serve' := by
  induction count with
  | zero => rfl
  | succ count ih =>
    rw [pages_succ, pages_succ, ih fun k hk => h k (by omega), h count (by omega)]

theorem take_append_page : l.take (k * n) ++ page n k l = l.take ((k + 1) * n) := by
  unfold page
  rw [← take_add, Nat.succ_mul]

/-- The pages of one list are its beginning. -/
theorem pages_const : (pages n count fun _ => l) = l.take (count * n) := by
  induction count with
  | zero => simp [pages]
  | succ count ih => rw [pages_succ, ih, take_append_page]

/-- The pages of a list that is served anew from some page on. -/
theorem pages_switch {l' : List α} {extra : ℕ} :
    pages n (k + extra) (fun i => if i < k then l else l') =
      l.take (k * n) ++ (l'.drop (k * n)).take (extra * n) := by
  induction extra with
  | zero =>
    have hfirst : pages n k (fun i => if i < k then l else l') = pages n k fun _ => l :=
      pages_congr fun i hi => if_pos hi
    rw [Nat.add_zero, hfirst, pages_const]
    simp
  | succ extra ih =>
    rw [← Nat.add_assoc, pages_succ, ih, if_neg (by omega), append_assoc, append_cancel_left_eq]
    unfold page
    rw [Nat.add_mul, ← drop_drop, ← take_add, Nat.succ_mul]

end Pages

section Order

variable (le : α → α → Prop) [DecidableRel le]

/-- A list of the items that respects the order. -/
structure Served (items l : List α) : Prop where
  perm : l.Perm items
  ordered : l.Pairwise le

/-- How many items come before the item in every order. -/
def below (items : List α) (a : α) : ℕ := items.countP fun b => ¬ le a b

/-- How many items may come before the item, and the item. -/
def upto (items : List α) (a : α) : ℕ := items.countP fun b => le b a

/-- No class of equal items lies across a multiple of `n`. -/
def Unsplit (items : List α) (n : ℕ) : Prop :=
  ∀ a ∈ items, ∀ k, k * n ≤ below le items a ∨ upto le items a ≤ k * n

variable {le} {items l : List α} {m : ℕ}

theorem Served.below_eq (h : Served le items l) (a : α) : below le l a = below le items a :=
  h.perm.countP_eq _

theorem Served.upto_eq (h : Served le items l) (a : α) : upto le l a = upto le items a :=
  h.perm.countP_eq _

theorem lt_countP {p : α → Bool} {i : ℕ} (hi : i < l.length)
    (h : ∀ j (hj : j < l.length), j ≤ i → p l[j] = true) : i < l.countP p := by
  have htake : (l.take (i + 1)).countP p = (l.take (i + 1)).length := by
    rw [countP_eq_length]
    intro a ha
    obtain ⟨j, hj, rfl⟩ := mem_take_iff_getElem.mp ha
    exact h j (by omega) (by omega)
  rw [← take_append_drop (i + 1) l, countP_append, htake, length_take]
  omega

theorem countP_le {p : α → Bool} {i : ℕ}
    (h : ∀ j (hj : j < l.length), i ≤ j → ¬ p l[j] = true) : l.countP p ≤ i := by
  have hdrop : (l.drop i).countP p = 0 := by
    rw [countP_eq_zero]
    intro a ha
    obtain ⟨j, hj, rfl⟩ := mem_drop_iff_getElem.mp ha
    exact h (i + j) (by omega) (by omega)
  rw [← take_append_drop i l, countP_append, hdrop]
  have hlength : (l.take i).countP p ≤ (l.take i).length := countP_le_length
  rw [length_take] at hlength
  omega

variable [Std.Total le] [IsTrans α le]

omit [DecidableRel le] [IsTrans α le] in
theorem le_of_index_le (h : l.Pairwise le) {i j : ℕ} (hi : i < l.length) (hj : j < l.length)
    (hij : i ≤ j) : le l[i] l[j] := by
  rcases hij.eq_or_lt with rfl | hlt
  · exact (Std.Total.total (r := le) l[i] l[i]).elim id id
  · exact pairwise_iff_getElem.mp h i j hi hj hlt

section Positions

variable {i : ℕ} {a : α} (h : l.Pairwise le) (hi : i < l.length)
include h

omit [IsTrans α le] in
theorem below_le_index : below le l l[i] ≤ i := by
  apply countP_le
  intro j hj hij
  simpa using le_of_index_le h hi hj hij

omit [IsTrans α le] in
theorem index_lt_upto : i < upto le l l[i] := by
  apply lt_countP hi
  intro j hj hij
  exact decide_eq_true (le_of_index_le h hj hi hij)

/-- An item comes before another in every order where it stands among as many as do. -/
theorem le_of_below_le (hbelow : below le l a ≤ i) : le a l[i] := by
  by_contra hnot
  have hlt : i < below le l a := by
    apply lt_countP hi
    intro j hj hij
    apply decide_eq_true
    exact fun hle => hnot (IsTrans.trans _ _ _ hle (le_of_index_le h hj hi hij))
  omega

theorem le_of_lt_upto (hupto : i < upto le l a) : le l[i] a := by
  by_contra hnot
  have hle : upto le l a ≤ i := by
    apply countP_le
    intro j hj hij htrue
    exact hnot (IsTrans.trans _ _ _ (le_of_index_le h hi hj hij) (of_decide_eq_true htrue))
  omega

end Positions

theorem filter_eq_take {p : α → Bool} (h : ∀ i (hi : i < l.length), p l[i] = true ↔ i < m) :
    l.filter p = l.take m := by
  have htake : (l.take m).filter p = l.take m := by
    rw [filter_eq_self]
    intro a ha
    obtain ⟨i, hi, rfl⟩ := mem_take_iff_getElem.mp ha
    exact (h i (by omega)).mpr (by omega)
  have hdrop : (l.drop m).filter p = [] := by
    rw [filter_eq_nil_iff]
    intro a ha
    obtain ⟨i, hi, rfl⟩ := mem_drop_iff_getElem.mp ha
    rw [h (m + i) (by omega)]
    omega
  conv_lhs => rw [← take_append_drop m l]
  rw [filter_append, htake, hdrop, append_nil]

omit [IsTrans α le] in
/-- What is served before a boundary is the same in every order that no class lies across. -/
theorem Served.take_eq (h : Served le items l) (hm : ∀ a ∈ items, m ≤ below le items a ∨ upto le items a ≤ m) :
    l.take m = l.filter fun a => upto le items a ≤ m := by
  symm
  apply filter_eq_take
  intro i hi
  rw [decide_eq_true_iff]
  have hbelow := below_le_index h.ordered hi
  have hupto := index_lt_upto h.ordered hi
  rw [h.below_eq] at hbelow
  rw [h.upto_eq] at hupto
  have hitem := hm l[i] (h.perm.mem_iff.mp (getElem_mem hi))
  omega

omit [IsTrans α le] in
theorem Served.take_perm {l' : List α} (h : Served le items l) (h' : Served le items l')
    (hm : ∀ a ∈ items, m ≤ below le items a ∨ upto le items a ≤ m) : (l.take m).Perm (l'.take m) := by
  rw [h.take_eq hm, h'.take_eq hm]
  exact (h.perm.trans h'.perm.symm).filter _

variable {n count : ℕ}

omit [IsTrans α le] in
theorem pages_perm_of_unsplit (h : Unsplit le items n) {serve : ℕ → List α}
    (hserve : ∀ k, Served le items (serve k)) (hcount : items.length ≤ count * n) :
    (pages n count serve).Perm items := by
  have htake : ∀ count, (pages n count serve).Perm ((serve 0).take (count * n)) := by
    intro count
    induction count with
    | zero => simp [pages]
    | succ count ih =>
      have hbefore := (hserve 0).take_perm (hserve count) fun a ha => h a ha count
      have hbehind := (hserve count).take_perm (hserve 0) fun a ha => h a ha (count + 1)
      rw [pages_succ]
      refine ((ih.trans hbefore).append_right _).trans ?_
      rw [take_append_page]
      exact hbehind
  have hlength := (hserve 0).perm.length_eq
  have hall := htake count
  rw [take_of_length_le (by omega)] at hall
  exact hall.trans (hserve 0).perm

omit [DecidableRel le] [Std.Total le] [IsTrans α le] in
/-- Two equal neighbours may change places. -/
theorem Served.swap {before behind : List α} {x y : α}
    (h : Served le items (before ++ x :: y :: behind)) (hle : le y x) :
    Served le items (before ++ y :: x :: behind) := by
  constructor
  · exact ((Perm.swap x y behind).append_left before).trans h.perm
  · have hordered := h.ordered
    rw [pairwise_append, pairwise_cons, pairwise_cons] at hordered ⊢
    obtain ⟨hbefore, ⟨hx, hy, hbehind⟩, hacross⟩ := hordered
    refine ⟨hbefore, ⟨?_, ?_, hbehind⟩, ?_⟩
    · intro b hb
      rcases mem_cons.mp hb with rfl | hb
      · exact hle
      · exact hy b hb
    · intro b hb
      exact hx b (mem_cons_of_mem _ hb)
    · intro a ha b hb
      apply hacross a ha b
      simp only [mem_cons] at hb ⊢
      tauto

/-- A class across a boundary: its last item before the boundary may be served once more behind it. -/
theorem unsplit_of_pages_perm (hn : items.Nodup) (hcount : items.length ≤ count * n)
    (h : ∀ serve : ℕ → List α, (∀ k, Served le items (serve k)) → (pages n count serve).Perm items) :
    Unsplit le items n := by
  intro a ha k
  by_contra hsplit
  rw [not_or, not_le, not_le] at hsplit
  obtain ⟨hbelow, hupto⟩ := hsplit
  have hsorted : Served le items (items.insertionSort le) :=
    ⟨perm_insertionSort le items, pairwise_insertionSort le items⟩
  generalize items.insertionSort le = l at hsorted
  have hlength := hsorted.perm.length_eq
  have hle : upto le items a ≤ items.length := countP_le_length
  obtain ⟨i, hi⟩ : ∃ i, k * n = i + 1 := ⟨k * n - 1, by omega⟩
  have hfirst : i < l.length := by omega
  have hsecond : i + 1 < l.length := by omega
  have hswap : le l[i + 1] l[i] := by
    rw [← hsorted.below_eq] at hbelow
    rw [← hsorted.upto_eq] at hupto
    exact IsTrans.trans _ a _ (le_of_lt_upto hsorted.ordered hsecond (by omega))
      (le_of_below_le hsorted.ordered hfirst (by omega))
  have hsplit : l = l.take i ++ l[i] :: l[i + 1] :: l.drop (i + 2) := by
    rw [← drop_eq_getElem_cons hsecond, ← drop_eq_getElem_cons hfirst, take_append_drop]
  have hserved := hsorted
  rw [hsplit] at hserved
  have hswapped := hserved.swap hswap
  obtain ⟨extra, rfl⟩ : ∃ extra, count = k + (extra + 1) := by
    have hlt : k < count := by
      by_contra hge
      have hmul := Nat.mul_le_mul_right n (not_lt.mp hge)
      omega
    exact ⟨count - k - 1, by omega⟩
  have hpages := h (fun j => if j < k then l else l.take i ++ l[i + 1] :: l[i] :: l.drop (i + 2))
    fun j => by
      split
      · exact hsorted
      · exact hswapped
  rw [pages_switch] at hpages
  have hnodup := hpages.nodup_iff.mpr hn
  have hbefore : l[i] ∈ l.take (k * n) := by
    rw [hi]
    exact mem_take_iff_getElem.mpr ⟨i, by omega, rfl⟩
  have hpos : 0 < n := by
    by_contra hzero
    rw [Nat.eq_zero_of_not_pos hzero] at hi
    omega
  have hbehind : l[i] ∈ ((l.take i ++ l[i + 1] :: l[i] :: l.drop (i + 2)).drop (k * n)).take
      ((extra + 1) * n) := by
    have hdrop : (l.take i ++ l[i + 1] :: l[i] :: l.drop (i + 2)).drop (k * n) =
        l[i] :: l.drop (i + 2) := by
      rw [hi, drop_append, length_take, min_eq_left (by omega), drop_of_length_le (by simp)]
      simp
    have hsome : 0 < (extra + 1) * n := Nat.mul_pos (Nat.succ_pos extra) hpos
    obtain ⟨size, hsize⟩ : ∃ size, (extra + 1) * n = size + 1 := ⟨(extra + 1) * n - 1, by omega⟩
    rw [hdrop, hsize, take_succ_cons]
    exact mem_cons_self
  exact disjoint_of_nodup_append hnodup hbefore hbehind

/-- The pages partition the items in every order if and only if no class of equal items lies
across the boundary of two pages. -/
theorem pages_perm_iff (hn : items.Nodup) (hcount : items.length ≤ count * n) :
    (∀ serve : ℕ → List α, (∀ k, Served le items (serve k)) → (pages n count serve).Perm items) ↔
      Unsplit le items n :=
  ⟨unsplit_of_pages_perm hn hcount, fun h _ hserve => pages_perm_of_unsplit h hserve hcount⟩

/-- An order without equal items. -/
theorem unsplit_of_antisymm (hn : items.Nodup)
    (h : ∀ a ∈ items, ∀ b ∈ items, le a b → le b a → a = b) : Unsplit le items n := by
  intro a ha k
  by_contra hsplit
  rw [not_or, not_le, not_le] at hsplit
  obtain ⟨hbelow, hupto⟩ := hsplit
  have hsorted : Served le items (items.insertionSort le) :=
    ⟨perm_insertionSort le items, pairwise_insertionSort le items⟩
  generalize items.insertionSort le = l at hsorted
  have hlength := hsorted.perm.length_eq
  have hle : upto le items a ≤ items.length := countP_le_length
  have hsame : ∀ i (hi : i < l.length), below le items a ≤ i → i < upto le items a → l[i] = a := by
    intro i hi hfirst hlast
    rw [← hsorted.below_eq] at hfirst
    rw [← hsorted.upto_eq] at hlast
    exact h _ (hsorted.perm.mem_iff.mp (getElem_mem hi)) a ha
      (le_of_lt_upto hsorted.ordered hi hlast) (le_of_below_le hsorted.ordered hi hfirst)
  have hfirst : k * n - 1 < l.length := by omega
  have hsecond : k * n < l.length := by omega
  have hequal : l[k * n - 1] = l[k * n] := by
    rw [hsame (k * n - 1) hfirst (by omega) (by omega), hsame (k * n) hsecond (by omega) (by omega)]
  have hindex := (hsorted.perm.nodup_iff.mpr hn).getElem_inj_iff.mp hequal
  omega

end Order

end Paging
