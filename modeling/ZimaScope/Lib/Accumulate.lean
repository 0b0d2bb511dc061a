import ZimaScope.Lib.Table

/-! # Tables that accumulate

Rows hold amounts, and a write adds its own amount to the row under its key, or
inserts it. What a list of writes makes of a total is the sum of the amounts
that fall under it, whatever the order.
-/

namespace Table

variable {κ α M : Type*} [DecidableEq κ] [AddCommMonoid M]

/-- Writes amounts one after the other; `add` says what a write makes of the row. -/
def addAll (add : α → Option α → α) (writes : List (κ × α)) (t : Table κ α) : Table κ α :=
  writes.foldl (fun t w => t.upsert w.1 (add w.2)) t

/-- What writes under these keys amount to. -/
def amount (g : α → M) (p : κ → Prop) [DecidablePred p] (writes : List (κ × α)) : M :=
  (writes.map fun w => if p w.1 then g w.2 else 0).sum

/-- The amount in one row. -/
def amountAt (g : α → M) (t : Table κ α) (k : κ) : M := (t.find k).elim 0 g

/-- The amount in the rows under these keys. -/
def totalOf (g : α → M) (p : κ → Prop) [DecidablePred p] (t : Table κ α) : M :=
  t.total fun k a => if p k then g a else 0

def Has (t : Table κ α) (k : κ) : Prop := ∃ a, t.find k = some a

section

variable {add : α → Option α → α} {g : α → M} {p q : κ → Prop} [DecidablePred p] [DecidablePred q]
  {t : Table κ α} {writes : List (κ × α)} {k : κ}

theorem addAll_append {writes' : List (κ × α)} :
    addAll add (writes ++ writes') t = addAll add writes' (addAll add writes t) :=
  List.foldl_append

theorem totalOf_eq : totalOf g (· = k) t = amountAt g t k := by
  unfold amountAt totalOf
  cases h : t.find k with
  | none => exact total_of_find_none (g := fun _ a => g a) h
  | some a => exact total_of_find (g := fun _ a => g a) h

theorem totalOf_congr (h : ∀ k, t.Has k → (p k ↔ q k)) : totalOf g p t = totalOf g q t := by
  refine total_congr fun k a hk => ?_
  simp only [h k ⟨a, hk⟩]

/-- Rows under other keys do not count. -/
theorem totalOf_filter {keep : κ → Bool} (h : ∀ k, p k → keep k = true) :
    totalOf g p (t.filter fun k _ => keep k) = totalOf g p t := by
  unfold totalOf
  rw [total_filter]
  refine total_congr fun k a _ => ?_
  by_cases hp : p k
  · rw [if_pos (h k hp)]
  · rw [if_neg hp, ite_self]

theorem totalOf_filter_eq_zero {keep : κ → Bool} (h : ∀ k, p k → keep k = false) :
    totalOf g p (t.filter fun k _ => keep k) = 0 := by
  unfold totalOf
  rw [total_filter]
  refine total_eq_zero fun k a _ => ?_
  by_cases hp : p k
  · rw [h k hp]
    rfl
  · rw [if_neg hp, ite_self]

omit [DecidablePred p] [DecidablePred q] in
theorem amountAt_filter {keep : κ → Bool} :
    amountAt g (t.filter fun k _ => keep k) k = if keep k then amountAt g t k else 0 := by
  unfold amountAt
  rw [find_filter]
  cases t.find k <;> cases keep k <;> simp [Option.filter_some]

theorem totalOf_addAll (hadd : ∀ a old, g (add a old) = old.elim 0 g + g a) :
    totalOf g p (addAll add writes t) = totalOf g p t + amount g p writes := by
  induction writes generalizing t with
  | nil => exact (add_zero _).symm
  | cons w writes ih =>
    have hstep : totalOf g p (t.upsert w.1 (add w.2)) =
        totalOf g p t + if p w.1 then g w.2 else 0 := by
      refine total_upsert_of_add ?_
      by_cases hp : p w.1
      · simp only [if_pos hp]
        exact hadd w.2 _
      · simp only [if_neg hp]
        cases t.find w.1 <;> exact (add_zero _).symm
    change totalOf g p (addAll add writes (t.upsert w.1 (add w.2))) = _
    rw [ih, hstep, add_assoc]
    rfl

theorem amountAt_addAll (hadd : ∀ a old, g (add a old) = old.elim 0 g + g a) :
    amountAt g (addAll add writes t) k = amountAt g t k + amount g (· = k) writes := by
  rw [← totalOf_eq, totalOf_addAll hadd, totalOf_eq]

omit [AddCommMonoid M] in
theorem has_addAll : (addAll add writes t).Has k ↔ t.Has k ∨ ∃ w ∈ writes, w.1 = k := by
  induction writes generalizing t with
  | nil => simp [addAll]
  | cons w writes ih =>
    change (addAll add writes (t.upsert w.1 (add w.2))).Has k ↔ _
    rw [ih]
    have hstep : (t.upsert w.1 (add w.2)).Has k ↔ w.1 = k ∨ t.Has k := by
      unfold Has
      rw [find_upsert]
      by_cases hk : k = w.1
      · simp [hk]
      · simp [hk, Ne.symm hk]
    rw [hstep, List.exists_mem_cons_iff]
    tauto

omit [AddCommMonoid M] in
/-! ## Overwriting -/

/-- A write that replaces what is there. -/
def replace (a : α) (_ : Option α) : α := a

/-- The last of the writes under a key. -/
def lastWrite (writes : List (κ × α)) (k : κ) : Option α :=
  (writes.reverse.find? fun w => w.1 = k).map Prod.snd

theorem find_addAll_replace :
    (addAll replace writes t).find k = (lastWrite writes k).or (t.find k) := by
  induction writes generalizing t with
  | nil => rfl
  | cons w writes ih =>
    have hcons : addAll replace (w :: writes) t = addAll replace writes (t.upsert w.1 (replace w.2)) :=
      rfl
    rw [hcons, ih, find_upsert]
    unfold lastWrite
    rw [List.reverse_cons, List.find?_append]
    cases writes.reverse.find? fun w => w.1 = k with
    | some last => rfl
    | none =>
      by_cases hk : k = w.1
      · simp [hk, replace]
      · simp [hk, Ne.symm hk]

theorem keys_addAll {writes : List (κ × α)} (h : ∀ w ∈ writes, t.Has w.1) :
    (addAll add writes t).rows.map Prod.fst = t.rows.map Prod.fst := by
  induction writes generalizing t with
  | nil => rfl
  | cons w writes ih =>
    obtain ⟨a, ha⟩ := h w List.mem_cons_self
    refine (ih fun w' hw' => ?_).trans (keys_upsert_of_find ha)
    obtain ⟨b, hb⟩ := h w' (List.mem_cons_of_mem _ hw')
    by_cases hk : w'.1 = w.1
    · exact ⟨_, by rw [hk]; exact find_upsert_self⟩
    · exact ⟨b, by rw [find_upsert_of_ne hk, hb]⟩

/-- Writes that replace can be made twice. -/
theorem addAll_replace_twice :
    addAll replace writes (addAll replace writes t) = addAll replace writes t := by
  refine ext_find (keys_addAll fun w hw => ?_) fun k => ?_
  · exact has_addAll.mpr (Or.inr ⟨w, hw, rfl⟩)
  · rw [find_addAll_replace, find_addAll_replace, ← Option.or_assoc, Option.or_self]

theorem has_filter {keep : κ → Bool} :
    (t.filter fun k _ => keep k).Has k ↔ t.Has k ∧ keep k = true := by
  unfold Has
  simp only [find_filter, Option.filter_eq_some_iff, exists_and_right]

omit [DecidableEq κ] in
theorem amount_flatMap {β : Type*} {f : β → List (κ × α)} {items : List β} :
    amount g p (items.flatMap f) = (items.map fun item => amount g p (f item)).sum := by
  unfold amount
  induction items with
  | nil => rfl
  | cons item items ih => rw [List.flatMap_cons, List.map_append, List.sum_append, ih]; rfl

omit [DecidableEq κ] in
theorem amount_map {β : Type*} {f : β → κ × α} {items : List β} :
    amount g p (items.map f) =
      (items.map fun item => if p (f item).1 then g (f item).2 else 0).sum := by
  unfold amount
  rw [List.map_map]
  rfl

end

end Table
