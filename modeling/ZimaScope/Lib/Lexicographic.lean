import Mathlib.Data.List.Lex
import Mathlib.Data.List.Infix
import Mathlib.Data.String.Basic
import Mathlib.Data.UInt

/-! # Lexicographic orders

Words that are joined with a delimiter below all of their letters compare as the
lists of the words do. Texts compare as their bytes in UTF-8.
-/

instance linearOrderUInt8 : LinearOrder UInt8 where
  le_refl a := UInt8.le_refl a
  le_trans _ _ _ := UInt8.le_trans
  le_antisymm _ _ := UInt8.le_antisymm
  le_total := UInt8.le_total
  lt_iff_le_not_ge a b := by
    rw [UInt8.lt_iff_toNat_lt, UInt8.le_iff_toNat_le, UInt8.le_iff_toNat_le]
    omega
  toDecidableLE := inferInstance
  toDecidableLT := inferInstance

namespace List

/-! ## Joined words -/

section Parts

variable {α : Type*} {a : α}

theorem intercalate_cons_eq_append (x : List α) (l : List (List α)) :
    [a].intercalate (x :: l) = x ++ l.flatMap (a :: ·) := by
  induction l generalizing x with
  | nil => simp
  | cons y l ih =>
    rw [intercalate_cons_of_ne_nil (cons_ne_nil _ _), ih, flatMap_cons]
    simp

theorem flatMap_intercalate {β : Type*} {f : α → List β} {b : β} (hf : f a = [b])
    (l : List (List α)) :
    ([a].intercalate l).flatMap f = [b].intercalate (l.map fun x => x.flatMap f) := by
  cases l with
  | nil => rfl
  | cons x l =>
    have hrest : (l.flatMap (a :: ·)).flatMap f = (l.map fun x => x.flatMap f).flatMap (b :: ·) := by
      rw [flatMap_assoc, flatMap_map]
      congr 1
      funext y
      rw [flatMap_cons, hf]
      rfl
    rw [map_cons, intercalate_cons_eq_append, intercalate_cons_eq_append, flatMap_append, hrest]

/-- The end of a word, or the delimiter behind it. -/
def Behind (a : α) (t : List α) : Prop := ∀ c ∈ t.head?, c = a

theorem behind_flatMap (l : List (List α)) : Behind a (l.flatMap (a :: ·)) := by
  intro c hc
  cases l with
  | nil => simp at hc
  | cons x l => simpa using hc.symm

end Parts

variable {α β : Type*} [LinearOrder α] [LinearOrder β]

section Joined

variable {a : α} {l l' : List (List α)}

theorem append_lt_append_iff {x y t t' : List α} (hx : ∀ c ∈ x, a < c) (hy : ∀ c ∈ y, a < c)
    (ht : Behind a t) (ht' : Behind a t') : x ++ t < y ++ t' ↔ x < y ∨ x = y ∧ t < t' := by
  induction x generalizing y with
  | nil =>
    cases y with
    | nil => simp
    | cons d y =>
      have hlt : t < d :: (y ++ t') := by
        cases t with
        | nil => exact nil_lt_cons _ _
        | cons c t =>
          obtain rfl := ht c rfl
          exact cons_lt_cons_iff.mpr (.inl (hy d mem_cons_self))
      simpa using hlt
  | cons c x ih =>
    cases y with
    | nil =>
      have hge : ¬c :: (x ++ t) < t' := by
        cases t' with
        | nil => exact not_lt_nil _
        | cons d t' =>
          obtain rfl := ht' d rfl
          have hc := hx c mem_cons_self
          rw [cons_lt_cons_iff]
          rintro (hlt | ⟨rfl, -⟩)
          · exact lt_asymm hc hlt
          · exact lt_irrefl _ hc
      simpa using hge
    | cons d y =>
      rw [cons_append, cons_append, cons_lt_cons_iff, cons_lt_cons_iff,
        ih (fun e he => hx e (mem_cons_of_mem c he)) fun e he => hy e (mem_cons_of_mem d he)]
      constructor
      · rintro (hlt | ⟨rfl, hlt | ⟨rfl, hlt⟩⟩)
        · exact .inl (.inl hlt)
        · exact .inl (.inr ⟨rfl, hlt⟩)
        · exact .inr ⟨rfl, hlt⟩
      · rintro ((hlt | ⟨rfl, hlt⟩) | ⟨heq, hlt⟩)
        · exact .inl hlt
        · exact .inr ⟨rfl, .inl hlt⟩
        · obtain ⟨rfl, rfl⟩ := cons.inj heq
          exact .inr ⟨rfl, .inr ⟨rfl, hlt⟩⟩

theorem flatMap_cons_lt_iff (hl : ∀ x ∈ l, ∀ c ∈ x, a < c) (hl' : ∀ x ∈ l', ∀ c ∈ x, a < c) :
    l.flatMap (a :: ·) < l'.flatMap (a :: ·) ↔ l < l' := by
  induction l generalizing l' with
  | nil =>
    cases l' with
    | nil => simp
    | cons y l' => simp
  | cons x l ih =>
    cases l' with
    | nil => simp
    | cons y l' =>
      rw [flatMap_cons, flatMap_cons, cons_append, cons_append, cons_lt_cons_self,
        append_lt_append_iff (hl x mem_cons_self) (hl' y mem_cons_self) (behind_flatMap l)
          (behind_flatMap l'),
        ih (fun z hz => hl z (mem_cons_of_mem x hz)) fun z hz => hl' z (mem_cons_of_mem y hz),
        cons_lt_cons_iff]

theorem intercalate_lt_iff (hl : ∀ x ∈ l, x ≠ [] ∧ ∀ c ∈ x, a < c)
    (hl' : ∀ x ∈ l', x ≠ [] ∧ ∀ c ∈ x, a < c) :
    [a].intercalate l < [a].intercalate l' ↔ l < l' := by
  cases l with
  | nil =>
    cases l' with
    | nil => simp
    | cons y l' =>
      obtain ⟨c, y, rfl⟩ := exists_cons_of_ne_nil (hl' y mem_cons_self).1
      rw [intercalate_cons_eq_append]
      simp
  | cons x l =>
    cases l' with
    | nil => simp
    | cons y l' =>
      rw [intercalate_cons_eq_append, intercalate_cons_eq_append,
        append_lt_append_iff (hl x mem_cons_self).2 (hl' y mem_cons_self).2 (behind_flatMap l)
          (behind_flatMap l'),
        flatMap_cons_lt_iff (fun z hz => (hl z (mem_cons_of_mem x hz)).2)
          fun z hz => (hl' z (mem_cons_of_mem y hz)).2,
        cons_lt_cons_iff]

end Joined

/-! ## Prefixes -/

theorem cons_le_cons_iff' {c d : α} {l l' : List α} :
    c :: l ≤ d :: l' ↔ c < d ∨ c = d ∧ l ≤ l' := by
  rw [← not_lt, cons_lt_cons_iff, ← not_lt (a := l')]
  rcases lt_trichotomy c d with h | rfl | h
  · simp [h, h.not_gt, h.ne']
  · simp
  · simp [h, h.not_gt, h.ne']

/-- What lies between two extensions of a list extends it. -/
theorem prefix_of_between {r l l' m : List α} (hl : r <+: l) (hl' : r <+: l') (hlm : l ≤ m)
    (hml : m ≤ l') : r <+: m := by
  induction r generalizing l l' m with
  | nil => exact nil_prefix
  | cons c r ih =>
    obtain ⟨u, rfl⟩ := hl
    obtain ⟨u', rfl⟩ := hl'
    cases m with
    | nil => exact absurd hlm (not_le.mpr (nil_lt_cons _ _))
    | cons d m =>
      rw [cons_append] at hlm hml
      rcases cons_le_cons_iff'.mp hlm with hlt | ⟨rfl, hrest⟩
      · rcases cons_le_cons_iff'.mp hml with hlt' | ⟨rfl, -⟩
        · exact absurd hlt hlt'.not_gt
        · exact absurd hlt (lt_irrefl _)
      · rcases cons_le_cons_iff'.mp hml with hlt | ⟨-, hml⟩
        · exact absurd hlt (lt_irrefl _)
        · rw [cons_prefix_cons]
          exact ⟨rfl, ih (prefix_append r u) (prefix_append r u') hrest hml⟩

theorem lt_append_of_ne_nil {l t : List α} (h : t ≠ []) : l < l ++ t := by
  induction l with
  | nil =>
    obtain ⟨c, t, rfl⟩ := exists_cons_of_ne_nil h
    exact nil_lt_cons _ _
  | cons c l ih => exact cons_lt_cons_iff.mpr (.inr ⟨rfl, ih⟩)

/-! ## Codes -/

/-- A code that tells two letters apart before either of their codes ends, in their order. -/
def OrderedCode (f : α → List β) : Prop :=
  (∀ c, f c ≠ []) ∧ ∀ c d, c < d → ∀ t t', f c ++ t < f d ++ t'

theorem OrderedCode.flatMap_lt_iff {f : α → List β} (hf : OrderedCode f) {l l' : List α} :
    l.flatMap f < l'.flatMap f ↔ l < l' := by
  have hmono : ∀ {l l' : List α}, l < l' → l.flatMap f < l'.flatMap f := by
    intro l
    induction l with
    | nil =>
      intro l' h
      cases l' with
      | nil => exact absurd h (lt_irrefl _)
      | cons d l' =>
        rw [flatMap_nil, flatMap_cons]
        exact lt_append_of_ne_nil (append_ne_nil_of_left_ne_nil (hf.1 d) _)
    | cons c l ih =>
      intro l' h
      cases l' with
      | nil => exact absurd h (not_lt_nil _)
      | cons d l' =>
        rw [flatMap_cons, flatMap_cons]
        rcases cons_lt_cons_iff.mp h with hlt | ⟨rfl, hlt⟩
        · exact hf.2 c d hlt _ _
        · exact append_left_lt (ih hlt)
  refine ⟨fun h => ?_, hmono⟩
  rcases lt_trichotomy l l' with hlt | rfl | hgt
  · exact hlt
  · exact absurd h (lt_irrefl _)
  · exact absurd h (hmono hgt).not_gt

theorem orderedCode_utf8 : OrderedCode String.utf8EncodeChar := by
  refine ⟨fun c => String.utf8EncodeChar_ne_nil, fun c d hlt t t' => ?_⟩
  have hval : c.val.toNat < d.val.toNat := hlt
  have hmax : d.val.toNat < 0x110000 := by
    have hvalid : Nat.isValidChar d.val.toNat := d.valid
    unfold Nat.isValidChar at hvalid
    omega
  have hdigit : ∀ m n : ℕ, m < n → m / 64 < n / 64 ∨ m / 64 = n / 64 ∧ m % 64 < n % 64 := by
    omega
  have hfirst := hdigit _ _ hval
  have hsecond := hdigit (c.val.toNat / 64) (d.val.toNat / 64)
  have hthird := hdigit (c.val.toNat / 4096) (d.val.toNat / 4096)
  have hdiv : ∀ n : ℕ, n / 64 / 64 = n / 4096 ∧ n / 4096 / 64 = n / 262144 := fun n =>
    ⟨Nat.div_div_eq_div_mul n 64 64, Nat.div_div_eq_div_mul n 4096 64⟩
  have htop : ∀ n, n < 0x110000 → (n / 262144 % 0x08 + 0xf0) % 2 ^ 8 = n / 262144 + 0xf0 := by omega
  have htopc := htop c.val.toNat (by omega)
  have htopd := htop d.val.toNat hmax
  rw [(hdiv _).1, (hdiv _).1] at hsecond
  rw [(hdiv _).2, (hdiv _).2] at hthird
  have hmore : ∀ n, (n % 0x40 + 0x80) % 2 ^ 8 = n % 0x40 + 0x80 := by omega
  unfold String.utf8EncodeChar
  simp only
  split_ifs <;>
    simp only [cons_append, nil_append, cons_lt_cons_iff, UInt8.lt_iff_toNat_lt, ← UInt8.toNat_inj,
      UInt8.toNat_ofNat', htopc, htopd, hmore] <;>
    omega

theorem nul_mem_utf8EncodeChar {c : Char} (h : (0 : UInt8) ∈ String.utf8EncodeChar c) :
    c.toNat = 0 := by
  change c.val.toNat = 0
  unfold String.utf8EncodeChar at h
  simp only at h
  split_ifs at h <;>
    simp only [mem_cons, not_mem_nil, or_false, ← UInt8.toNat_inj, UInt8.toNat_ofNat',
      UInt8.toNat_zero] at h <;>
    omega

end List
