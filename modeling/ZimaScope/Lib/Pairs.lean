import Mathlib.Data.List.Forall2
import ZimaScope.Lib.Storage

/-! # Lists read one or two at a time

What a loop that may stop reads, element by element. A list that falls into pairs, and what the pairs are read as. A loop over the chunks of two
elements reads the same as long as no element is left over.
-/

variable {α β ε : Type}

/-! ## Elements -/

theorem List.Forall₂.exists_of_mem {R : α → β → Prop} {xs : List α} {ys : List β} {x : α}
    (h : List.Forall₂ R xs ys) (hx : x ∈ xs) : ∃ y, R x y := by
  induction h with
  | nil => cases hx
  | cons h _ ih =>
    rcases List.mem_cons.mp hx with rfl | hx
    · exact ⟨_, h⟩
    · exact ih hx

theorem mapM_eq_some_iff {f : α → Option β} {xs : List α} {ys : List β} :
    xs.mapM f = some ys ↔ List.Forall₂ (fun x y => f x = some y) xs ys := by
  induction xs generalizing ys with
  | nil =>
    rw [List.mapM_nil, List.forall₂_nil_left_iff]
    exact Option.some_inj.trans eq_comm
  | cons x xs ih =>
    rw [List.mapM_cons, List.forall₂_cons_left_iff]
    constructor
    · intro h
      obtain ⟨y, hy, h⟩ := Option.bind_eq_some_iff.mp h
      obtain ⟨ys, hys, h⟩ := Option.bind_eq_some_iff.mp h
      exact ⟨y, ys, hy, ih.mp hys, (Option.some.inj h).symm⟩
    · rintro ⟨y, ys, hy, hys, rfl⟩
      exact Option.bind_eq_some_iff.mpr ⟨y, hy, Option.bind_eq_some_iff.mpr ⟨ys, ih.mpr hys, rfl⟩⟩

theorem mapM_eq_ok_iff {f : α → Except ε β} {xs : List α} {ys : List β} :
    xs.mapM f = .ok ys ↔ List.Forall₂ (fun x y => f x = .ok y) xs ys := by
  induction xs generalizing ys with
  | nil =>
    rw [List.mapM_nil, List.forall₂_nil_left_iff]
    exact ⟨fun h => (Except.ok.inj h).symm, fun h => h ▸ rfl⟩
  | cons x xs ih =>
    rw [List.mapM_cons, List.forall₂_cons_left_iff]
    constructor
    · intro h
      obtain ⟨y, hy, h⟩ := Except.bind_eq_ok.mp h
      obtain ⟨ys, hys, h⟩ := Except.bind_eq_ok.mp h
      exact ⟨y, ys, hy, ih.mp hys, (Except.ok.inj h).symm⟩
    · rintro ⟨y, ys, hy, hys, rfl⟩
      exact Except.bind_eq_ok.mpr ⟨y, hy, Except.bind_eq_ok.mpr ⟨ys, ih.mpr hys, rfl⟩⟩

/-! ## Pairs -/

/-- The list falls into pairs, and each of them is so related. -/
inductive InPairs (R : α → α → Prop) : List α → Prop
  | nil : InPairs R []
  | cons {x y : α} {xs : List α} (h : R x y) (rest : InPairs R xs) : InPairs R (x :: y :: xs)

/-- The list falls into pairs, and these are what they are read as. -/
inductive ReadsPairs (R : α → α → β → Prop) : List α → List β → Prop
  | nil : ReadsPairs R [] []
  | cons {x y : α} {b : β} {xs : List α} {bs : List β} (h : R x y b) (rest : ReadsPairs R xs bs) :
      ReadsPairs R (x :: y :: xs) (b :: bs)

namespace InPairs

variable {R S : α → α → Prop} {P : α → Prop} {xs : List α}

theorem mono (h : InPairs R xs) (hrs : ∀ x ∈ xs, ∀ y ∈ xs, R x y → S x y) : InPairs S xs := by
  induction h with
  | nil => exact .nil
  | cons h _ ih =>
    refine .cons (hrs _ (by simp) _ (by simp) h) (ih fun x hx y hy => ?_)
    exact hrs x (by simp [hx]) y (by simp [hy])

theorem length_even (h : InPairs R xs) : xs.length % 2 = 0 := by
  induction h with
  | nil => rfl
  | cons _ _ ih =>
    rw [List.length_cons, List.length_cons]
    omega

theorem of_even : ∀ {xs : List α}, xs.length % 2 = 0 → (∀ x ∈ xs, P x) →
    InPairs (fun x y => P x ∧ P y) xs
  | [], _, _ => .nil
  | [_], heven, _ => absurd heven (by simp)
  | x :: y :: xs, heven, hall => by
    rw [List.forall_mem_cons, List.forall_mem_cons] at hall
    rw [List.length_cons, List.length_cons] at heven
    exact .cons ⟨hall.1, hall.2.1⟩ (of_even (by omega) hall.2.2)

/-- An even number of elements with a property are pairs of such elements. -/
theorem both_iff : InPairs (fun x y => P x ∧ P y) xs ↔ xs.length % 2 = 0 ∧ ∀ x ∈ xs, P x := by
  refine ⟨fun h => ⟨h.length_even, ?_⟩, fun h => of_even h.1 h.2⟩
  induction h with
  | nil => exact fun _ hx => nomatch hx
  | cons h _ ih => exact List.forall_mem_cons.mpr ⟨h.1, List.forall_mem_cons.mpr ⟨h.2, ih⟩⟩

end InPairs

namespace ReadsPairs

variable {R S : α → α → β → Prop} {xs : List α} {bs : List β}

theorem mono (h : ReadsPairs R xs bs) (hrs : ∀ x ∈ xs, ∀ y ∈ xs, ∀ b, R x y b → S x y b) :
    ReadsPairs S xs bs := by
  induction h with
  | nil => exact .nil
  | cons h _ ih =>
    refine .cons (hrs _ (by simp) _ (by simp) _ h) (ih fun x hx y hy => ?_)
    exact hrs x (by simp [hx]) y (by simp [hy])

/-- What can be read are pairs of which each can be. -/
theorem exists_iff : (∃ bs, ReadsPairs R xs bs) ↔ InPairs (fun x y => ∃ b, R x y b) xs := by
  constructor
  · rintro ⟨bs, h⟩
    induction h with
    | nil => exact .nil
    | cons h _ ih => exact .cons ⟨_, h⟩ ih
  · intro h
    induction h with
    | nil => exact ⟨[], .nil⟩
    | cons h _ ih =>
      obtain ⟨b, h⟩ := h
      obtain ⟨bs, ih⟩ := ih
      exact ⟨b :: bs, .cons h ih⟩

end ReadsPairs

/-! ## Chunks -/

theorem toChunks_go (n : ℕ) (xs : List α) (chunk : Array α) (chunks : Array (List α)) :
    List.toChunks.go n xs chunk chunks = chunks.toList ++ List.toChunks.go n xs chunk #[] := by
  induction xs generalizing chunk chunks with
  | nil => simp [List.toChunks.go]
  | cons x xs ih =>
    unfold List.toChunks.go
    split
    · rw [ih _ (chunks.push chunk.toList), ih _ (#[].push chunk.toList)]
      simp
    · exact ih _ _

theorem toChunks_cons_cons (x y : α) (xs : List α) :
    (x :: y :: xs).toChunks 2 = [x, y] :: xs.toChunks 2 := by
  cases xs with
  | nil => rfl
  | cons z xs => exact toChunks_go 2 xs #[z] #[[x, y]]

/-- Every element is in a chunk. -/
theorem exists_mem_toChunks : ∀ {xs : List α} {x : α}, x ∈ xs → ∃ chunk ∈ xs.toChunks 2, x ∈ chunk
  | [y], x, h => ⟨[y], List.mem_singleton_self _, h⟩
  | y :: z :: xs, x, h => by
    rw [toChunks_cons_cons]
    rcases List.mem_append.mp (show x ∈ [y, z] ++ xs from h) with hpair | hrest
    · exact ⟨[y, z], List.mem_cons_self, hpair⟩
    · obtain ⟨chunk, hchunk, hx⟩ := exists_mem_toChunks hrest
      exact ⟨chunk, List.mem_cons_of_mem _ hchunk, hx⟩

/-- The chunks of an even number of elements are pairs. -/
theorem forall₂_toChunks_iff {R : List α → β → Prop} : ∀ {xs : List α} {bs : List β},
    xs.length % 2 = 0 →
      (List.Forall₂ R (xs.toChunks 2) bs ↔ ReadsPairs (fun x y b => R [x, y] b) xs bs)
  | [], bs, _ => by
    constructor
    · intro h
      cases h
      exact .nil
    · intro h
      cases h
      exact .nil
  | [_], _, heven => absurd heven (by simp)
  | x :: y :: xs, bs, heven => by
    rw [List.length_cons, List.length_cons] at heven
    have hrest : ∀ bs, List.Forall₂ R (xs.toChunks 2) bs ↔
        ReadsPairs (fun x y b => R [x, y] b) xs bs := fun _ => forall₂_toChunks_iff (by omega)
    rw [toChunks_cons_cons]
    constructor
    · intro h
      cases h with
      | cons hb hbs => exact .cons hb ((hrest _).mp hbs)
    · intro h
      cases h with
      | cons hb hbs => exact .cons hb ((hrest _).mpr hbs)
