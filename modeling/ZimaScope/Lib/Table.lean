import Mathlib.Algebra.BigOperators.Group.List.Basic
import Mathlib.Algebra.Order.BigOperators.Group.Finset
import Mathlib.Data.List.Nodup

/-! # Keyed tables

Rows under distinct keys, in the order in which they were inserted. A row is
found under its key, inserted or updated in place, and deleted by a predicate;
a total sums a quantity over the rows.
-/

/-- Rows with distinct keys. -/
@[ext] structure Table (κ α : Type*) where
  rows : List (κ × α)
  nodup : (rows.map Prod.fst).Nodup
  deriving DecidableEq

namespace Table

variable {κ α M : Type*}

instance : EmptyCollection (Table κ α) := ⟨⟨[], List.nodup_nil⟩⟩

instance : Inhabited (Table κ α) := ⟨∅⟩

section Rows

variable (t : Table κ α)

/-- Keeps the rows the predicate holds for. -/
def filter (keep : κ → α → Bool) : Table κ α where
  rows := t.rows.filter fun r => keep r.1 r.2
  nodup := (List.filter_sublist.map Prod.fst).nodup t.nodup

theorem map_fst_mapRows (f : κ → α → α) :
    (t.rows.map fun r => (r.1, f r.1 r.2)).map Prod.fst = t.rows.map Prod.fst := by
  rw [List.map_map]
  rfl

/-- Rewrites every row, under its key. -/
def mapRows (f : κ → α → α) : Table κ α where
  rows := t.rows.map fun r => (r.1, f r.1 r.2)
  nodup := by
    rw [map_fst_mapRows]
    exact t.nodup

theorem mapRows_mapRows {f g : κ → α → α} :
    (t.mapRows f).mapRows g = t.mapRows fun k a => g k (f k a) := by
  ext1
  exact List.map_map

theorem mapRows_congr {f g : κ → α → α} (h : ∀ k a, f k a = g k a) : t.mapRows f = t.mapRows g := by
  ext1
  exact List.map_congr_left fun r _ => by rw [h]

theorem filter_filter {keep keep' : κ → α → Bool} :
    (t.filter keep).filter keep' = t.filter fun k a => keep k a && keep' k a := by
  ext1
  refine List.filter_filter.trans (List.filter_congr fun r _ => ?_)
  exact Bool.and_comm ..

/-- The sum of a quantity over the rows. -/
def total [Add M] [Zero M] (g : κ → α → M) : M := (t.rows.map fun r => g r.1 r.2).sum

end Rows

section Find

variable [DecidableEq κ] {t : Table κ α} {k k' : κ} {a : α}

def find (t : Table κ α) (k : κ) : Option α := (t.rows.find? fun r => r.1 = k).map Prod.snd

theorem find_eq_some_iff : t.find k = some a ↔ (k, a) ∈ t.rows := by
  obtain ⟨rows, hn⟩ := t
  unfold find
  induction rows with
  | nil => simp
  | cons r rows ih =>
    obtain ⟨hr, hn⟩ := List.nodup_cons.mp hn
    rw [List.find?_cons]
    by_cases hk : r.1 = k
    · simp only [hk, decide_true, Option.map_some, Option.some.injEq, List.mem_cons]
      constructor
      · rintro rfl
        exact Or.inl (Prod.ext hk.symm rfl)
      · rintro (rfl | hmem)
        · rfl
        · exact absurd (hk ▸ List.mem_map_of_mem hmem) hr
    · simp only [hk, decide_false, List.mem_cons]
      rw [ih hn]
      constructor
      · exact Or.inr
      · rintro (rfl | hmem)
        · exact absurd rfl hk
        · exact hmem

theorem find_eq_none_iff : t.find k = none ↔ ∀ a, (k, a) ∉ t.rows := by
  rw [Option.eq_none_iff_forall_ne_some]
  exact forall_congr' fun a => not_congr find_eq_some_iff

theorem find_empty : (∅ : Table κ α).find k = none := rfl

theorem find_filter {keep : κ → α → Bool} :
    (t.filter keep).find k = (t.find k).filter (keep k) := by
  ext a
  rw [find_eq_some_iff, Option.filter_eq_some_iff, find_eq_some_iff]
  exact List.mem_filter

/-- A filter that holds for every row leaves the table as it is. -/
theorem filter_eq_self {keep : κ → α → Bool} (h : ∀ k a, t.find k = some a → keep k a = true) :
    t.filter keep = t := by
  ext1
  exact List.filter_eq_self.mpr fun r hr => h r.1 r.2 (find_eq_some_iff.mpr hr)

theorem filter_eq_self_iff {keep : κ → α → Bool} :
    t.filter keep = t ↔ ∀ k a, t.find k = some a → keep k a = true := by
  refine ⟨fun h k a hfind => ?_, filter_eq_self⟩
  rw [← h, find_filter] at hfind
  exact (Option.filter_eq_some_iff.mp hfind).2

theorem find_mapRows {f : κ → α → α} : (t.mapRows f).find k = (t.find k).map (f k) := by
  ext a
  rw [find_eq_some_iff, Option.map_eq_some_iff]
  constructor
  · intro h
    obtain ⟨⟨k', b⟩, hmem, heq⟩ := List.mem_map.mp h
    obtain ⟨rfl, rfl⟩ := Prod.mk.inj heq
    exact ⟨b, find_eq_some_iff.mpr hmem, rfl⟩
  · rintro ⟨b, hb, rfl⟩
    exact List.mem_map.mpr ⟨(k, b), find_eq_some_iff.mp hb, rfl⟩

/-- Tables with the same keys in the same order, and the same rows under them. -/
theorem ext_find {t' : Table κ α} (hkeys : t.rows.map Prod.fst = t'.rows.map Prod.fst)
    (hfind : ∀ k, t.find k = t'.find k) : t = t' := by
  ext1
  have hlength : t.rows.length = t'.rows.length := by simpa using congrArg List.length hkeys
  refine List.ext_getElem hlength fun n hn hn' => ?_
  have hkey : t.rows[n].1 = t'.rows[n].1 := by
    have h := congrArg (fun l => l[n]?) hkeys
    simpa [hn, hn'] using h
  have hrow : t.find t.rows[n].1 = some t.rows[n].2 := find_eq_some_iff.mpr (List.getElem_mem hn)
  have hrow' : t'.find t.rows[n].1 = some t'.rows[n].2 := by
    rw [hkey]
    exact find_eq_some_iff.mpr (List.getElem_mem hn')
  rw [hfind, hrow'] at hrow
  exact Prod.ext hkey (Option.some.inj hrow).symm

/-- Inserts a row, or updates the one that is there. -/
def upsert (t : Table κ α) (k : κ) (f : Option α → α) : Table κ α :=
  if h : t.find k = none then
    { rows := t.rows ++ [(k, f none)]
      nodup := by
        rw [List.map_append, List.nodup_append]
        refine ⟨t.nodup, List.nodup_singleton _, ?_⟩
        rintro _ hmem _ hk rfl
        obtain ⟨⟨k', a⟩, hr, rfl⟩ := List.mem_map.mp hmem
        obtain rfl := List.mem_singleton.mp hk
        exact find_eq_none_iff.mp h a hr }
  else t.mapRows fun k' a => if k' = k then f (some a) else a

theorem find_upsert {f : Option α → α} :
    (t.upsert k f).find k' = if k' = k then some (f (t.find k)) else t.find k' := by
  unfold upsert
  split
  · next h =>
    ext a
    rw [find_eq_some_iff, List.mem_append, List.mem_singleton, Prod.mk.injEq, ← find_eq_some_iff]
    by_cases hk : k' = k
    · simp [hk, h, eq_comm]
    · simp [hk]
  · next h =>
    rw [find_mapRows]
    by_cases hk : k' = k
    · obtain ⟨a, ha⟩ := Option.ne_none_iff_exists'.mp h
      simp [hk, ha]
    · simp [hk]

/-- Only what becomes of the row that is there matters. -/
theorem upsert_congr {f g : Option α → α} (h : f (t.find k) = g (t.find k)) :
    t.upsert k f = t.upsert k g := by
  unfold upsert
  split
  · next hk =>
    rw [hk] at h
    simp only [h]
  · next hk =>
    ext1
    refine List.map_congr_left fun r hr => ?_
    by_cases hr' : r.1 = k
    · rw [find_eq_some_iff.mpr (hr' ▸ hr : (k, r.2) ∈ t.rows)] at h
      simp only [hr', h]
    · simp only [if_neg hr']

theorem mapRows_upsert {f : Option α → α} {g : κ → α → α} {f' : Option α → α}
    (h : ∀ old, g k (f old) = f' (old.map (g k))) :
    (t.upsert k f).mapRows g = (t.mapRows g).upsert k f' := by
  unfold upsert
  by_cases hk : t.find k = none
  · have hk' : (t.mapRows g).find k = none := by rw [find_mapRows, hk]; rfl
    rw [dif_pos hk, dif_pos hk']
    ext1
    exact List.map_append.trans (congrArg _ (congrArg (fun a => [(k, a)]) (h none)))
  · have hk' : (t.mapRows g).find k ≠ none := by rwa [find_mapRows, Option.map_eq_none_iff.ne]
    rw [dif_neg hk, dif_neg hk', mapRows_mapRows, mapRows_mapRows]
    refine mapRows_congr _ fun k' a => ?_
    by_cases hk : k' = k
    · subst hk
      rw [if_pos rfl, if_pos rfl, h]
      rfl
    · rw [if_neg hk, if_neg hk]

theorem keys_upsert_of_find {f : Option α → α} (h : t.find k = some a) :
    (t.upsert k f).rows.map Prod.fst = t.rows.map Prod.fst := by
  unfold upsert
  rw [dif_neg (by rw [h]; exact Option.some_ne_none a)]
  exact map_fst_mapRows t fun k' a => if k' = k then f (some a) else a

theorem find_upsert_self {f : Option α → α} : (t.upsert k f).find k = some (f (t.find k)) := by
  rw [find_upsert, if_pos rfl]

theorem find_upsert_of_ne {f : Option α → α} (h : k' ≠ k) : (t.upsert k f).find k' = t.find k' := by
  rw [find_upsert, if_neg h]

/-- Rows inserted or replaced one after another, should they agree with a table. -/
theorem find_foldl_upsert {next : Table κ α} {rows : List (κ × α)}
    (h : ∀ r ∈ rows, next.find r.1 = some r.2) :
    (rows.foldl (fun t r => t.upsert r.1 fun _ => r.2) t).find k =
      if ∃ r ∈ rows, r.1 = k then next.find k else t.find k := by
  induction rows generalizing t with
  | nil => simp
  | cons r rows ih =>
    rw [List.foldl_cons, ih fun r hr => h r (List.mem_cons_of_mem _ hr), find_upsert]
    by_cases hrows : ∃ r ∈ rows, r.1 = k
    · rw [if_pos hrows, if_pos (by simpa using Or.inr hrows)]
    · rw [if_neg hrows]
      by_cases hk : r.1 = k
      · rw [if_pos hk.symm, if_pos ⟨r, List.mem_cons_self, hk⟩, ← hk, h r List.mem_cons_self]
      · rw [if_neg (Ne.symm hk), if_neg (by simpa [hk] using hrows)]

/-- Rows deleted one after another. -/
theorem find_foldl_filter {rows : List (κ × α)} :
    (rows.foldl (fun t r => t.filter fun k _ => k ≠ r.1) t).find k =
      if ∃ r ∈ rows, r.1 = k then none else t.find k := by
  induction rows generalizing t with
  | nil => simp
  | cons r rows ih =>
    rw [List.foldl_cons, ih, find_filter]
    by_cases hrows : ∃ r ∈ rows, r.1 = k
    · rw [if_pos hrows, if_pos (by simpa using Or.inr hrows)]
    · rw [if_neg hrows]
      by_cases hk : r.1 = k
      · rw [if_pos ⟨r, List.mem_cons_self, hk⟩]
        simp [hk]
      · rw [if_neg (by simpa [hk] using hrows)]
        cases t.find k <;> simp [Ne.symm hk]

/-- The one row of a key. -/
theorem filter_rows_of_find (h : t.find k = some a) :
    t.rows.filter (fun r => r.1 = k) = [(k, a)] := by
  obtain ⟨rows, hn⟩ := t
  have hmem : (k, a) ∈ rows := find_eq_some_iff.mp h
  clear h
  induction rows with
  | nil => simp at hmem
  | cons r rows ih =>
    obtain ⟨hr, hn⟩ := List.nodup_cons.mp hn
    rcases List.mem_cons.mp hmem with rfl | hmem
    · have hnone : rows.filter (fun r => r.1 = k) = [] := by
        rw [List.filter_eq_nil_iff]
        rintro ⟨k', b⟩ hrmem heq
        obtain rfl : k' = k := of_decide_eq_true heq
        exact hr (List.mem_map.mpr ⟨_, hrmem, rfl⟩)
      simp [hnone]
    · have hne : r.1 ≠ k := fun heq => hr (heq ▸ List.mem_map_of_mem hmem)
      rw [List.filter_cons_of_neg (by simpa using hne)]
      exact ih hn hmem

end Find

/-! ## Totals -/

section Total

variable [AddCommMonoid M] {t : Table κ α} {g g' : κ → α → M}

theorem total_filter {keep : κ → α → Bool} :
    (t.filter keep).total g = t.total fun k a => if keep k a then g k a else 0 := by
  change ((t.rows.filter fun r => keep r.1 r.2).map fun r => g r.1 r.2).sum =
    (t.rows.map fun r => if keep r.1 r.2 then g r.1 r.2 else 0).sum
  induction t.rows with
  | nil => rfl
  | cons r rows ih => by_cases h : keep r.1 r.2 <;> simp [h, ih]

theorem total_mapRows {f : κ → α → α} :
    (t.mapRows f).total g = t.total fun k a => g k (f k a) := by
  unfold total mapRows
  rw [List.map_map]
  rfl

theorem total_add : (t.total fun k a => g k a + g' k a) = t.total g + t.total g' :=
  List.sum_map_add

variable [DecidableEq κ]

theorem total_congr (h : ∀ k a, t.find k = some a → g k a = g' k a) : t.total g = t.total g' :=
  congrArg List.sum (List.map_congr_left fun r hr => h r.1 r.2 (find_eq_some_iff.mpr hr))

theorem total_eq_zero (h : ∀ k a, t.find k = some a → g k a = 0) : t.total g = 0 := by
  refine (total_congr h).trans ?_
  unfold total
  simp

theorem total_of_find {k : κ} {a : α} (h : t.find k = some a) :
    (t.total fun k' a' => if k' = k then g k' a' else 0) = g k a := by
  have hfilter : (t.filter fun k' _ => k' = k).total g =
      t.total fun k' a' => if k' = k then g k' a' else 0 := by
    rw [total_filter]
    simp only [decide_eq_true_eq]
  have hrows : (t.filter fun k' _ => k' = k).rows = [(k, a)] := filter_rows_of_find h
  rw [← hfilter, total, hrows]
  simp

theorem total_of_find_none {k : κ} (h : t.find k = none) :
    (t.total fun k' a' => if k' = k then g k' a' else 0) = 0 := by
  refine total_eq_zero fun k' a hk' => if_neg ?_
  rintro rfl
  rw [h] at hk'
  simp at hk'

/-- A total is that of one key's row and that of the others. -/
theorem total_eq_add (k : κ) : t.total g =
    (t.find k).elim 0 (g k) + t.total fun k' a => if k' = k then 0 else g k' a := by
  have hsplit : t.total g = (t.total fun k' a => if k' = k then g k' a else 0) +
      t.total fun k' a => if k' = k then 0 else g k' a := by
    rw [← total_add]
    refine total_congr fun k' a _ => ?_
    by_cases h : k' = k <;> simp [h]
  rw [hsplit]
  congr 1
  cases h : t.find k with
  | none => exact total_of_find_none h
  | some a => exact total_of_find h

theorem total_upsert_ne {k : κ} {f : Option α → α} :
    ((t.upsert k f).total fun k' a => if k' = k then 0 else g k' a) =
      t.total fun k' a => if k' = k then 0 else g k' a := by
  unfold upsert
  split
  · unfold total
    simp
  · rw [total_mapRows]
    refine total_congr fun k' a _ => ?_
    by_cases h : k' = k <;> simp [h]

/-- What an upsert adds to a total. -/
theorem total_upsert_of_add {k : κ} {f : Option α → α} {d : M}
    (h : g k (f (t.find k)) = (t.find k).elim 0 (g k) + d) :
    (t.upsert k f).total g = t.total g + d := by
  rw [total_eq_add (g := g) (t := t) k, total_eq_add (g := g) k, total_upsert_ne,
    find_upsert_self, Option.elim_some, h]
  exact add_right_comm _ _ _

def keys (t : Table κ α) : Finset κ := (t.rows.map Prod.fst).toFinset

theorem mem_keys {k : κ} : k ∈ t.keys ↔ ∃ a, t.find k = some a := by
  rw [keys, List.mem_toFinset, List.mem_map]
  constructor
  · rintro ⟨⟨k, a⟩, hr, rfl⟩
    exact ⟨a, find_eq_some_iff.mpr hr⟩
  · rintro ⟨a, ha⟩
    exact ⟨(k, a), find_eq_some_iff.mp ha, rfl⟩

theorem total_eq_sum : t.total g = ∑ k ∈ t.keys, (t.find k).elim 0 (g k) := by
  rw [keys, List.sum_toFinset _ t.nodup, List.map_map]
  refine congrArg List.sum (List.map_congr_left fun r hr => ?_)
  rw [Function.comp_apply, find_eq_some_iff.mpr hr, Option.elim_some]

end Total

section Order

variable [DecidableEq κ] [AddCommMonoid M] [PartialOrder M] [IsOrderedAddMonoid M]
  {t t' : Table κ α} {g g' : κ → α → M}

/-- Rows that are all there later, with no less each, total no less. -/
theorem total_le_total (h : ∀ k a, t.find k = some a → ∃ a', t'.find k = some a' ∧ g k a ≤ g' k a')
    (h0 : ∀ k a, t'.find k = some a → 0 ≤ g' k a) : t.total g ≤ t'.total g' := by
  have hsub : t.keys ⊆ t'.keys := by
    intro k hk
    obtain ⟨a, ha⟩ := mem_keys.mp hk
    obtain ⟨a', ha', _⟩ := h k a ha
    exact mem_keys.mpr ⟨a', ha'⟩
  rw [total_eq_sum, total_eq_sum]
  calc ∑ k ∈ t.keys, (t.find k).elim 0 (g k)
    _ ≤ ∑ k ∈ t.keys, (t'.find k).elim 0 (g' k) := by
      refine Finset.sum_le_sum fun k hk => ?_
      obtain ⟨a, ha⟩ := mem_keys.mp hk
      obtain ⟨a', ha', hle⟩ := h k a ha
      rw [ha, ha']
      exact hle
    _ ≤ ∑ k ∈ t'.keys, (t'.find k).elim 0 (g' k) := by
      refine Finset.sum_le_sum_of_subset_of_nonneg hsub fun k hk _ => ?_
      obtain ⟨a, ha⟩ := mem_keys.mp hk
      rw [ha]
      exact h0 k a ha

end Order

end Table
