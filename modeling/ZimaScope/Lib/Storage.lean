import Mathlib.Data.List.Basic

/-! # Fallible storage

Actions on a store that run one statement after the other, any of which may
fail. A statement is all or nothing, a transaction undoes what ran in it when it
fails, and nothing else is undone.
-/

/-- A store, and for each coming statement the error it fails with, if it does; statements
past the end succeed. -/
structure Conn (σ : Type) where
  store : σ
  faults : List (Option String) := []
  deriving DecidableEq, Repr

/-- An action on the store, with its result or the error it stopped at. -/
def Storage (ε σ α : Type) := Conn σ → Except ε α × Conn σ

theorem Except.bind_eq_ok {ε α β : Type} {x : Except ε α} {f : α → Except ε β} {b : β} :
    (x >>= f) = .ok b ↔ ∃ a, x = .ok a ∧ f a = .ok b := by
  cases x with
  | error e => simp [bind, Except.bind]
  | ok a => simp [bind, Except.bind]

theorem Except.map_eq_ok {ε α β : Type} {x : Except ε α} {f : α → β} {b : β} :
    x.map f = .ok b ↔ ∃ a, x = .ok a ∧ f a = b := by
  cases x with
  | error e => simp [Except.map]
  | ok a => simp [Except.map]

theorem Except.isOk_iff_exists {ε α : Type} {x : Except ε α} : x.isOk = true ↔ ∃ a, x = .ok a := by
  cases x <;> simp [Except.isOk, Except.toBool]

/-- Two computations that do not depend on each other, and what is made of both. -/
theorem Except.isOk_bind_bind {ε α β γ : Type} {x : Except ε α} {y : Except ε β} {f : α → β → γ} :
    (x >>= fun a => y >>= fun b => pure (f a b)).isOk = true ↔ x.isOk = true ∧ y.isOk = true := by
  cases x with
  | error e => simp [bind, Except.bind, Except.isOk, Except.toBool]
  | ok a => cases y <;> simp [bind, Except.bind, pure, Except.pure, Except.isOk, Except.toBool]

/-- Whatever a loop collects is what one of its turns results in. -/
theorem Except.exists_of_mem_mapM {ε α β : Type} {f : α → Except ε β} {xs : List α} {ys : List β}
    (h : xs.mapM f = .ok ys) {y : β} (hy : y ∈ ys) : ∃ x ∈ xs, f x = .ok y := by
  induction xs generalizing ys with
  | nil =>
    obtain rfl := Except.ok.inj h
    simp at hy
  | cons x xs ih =>
    rw [List.mapM_cons] at h
    obtain ⟨first, hfirst, h⟩ := Except.bind_eq_ok.mp h
    obtain ⟨rest, hrest, h⟩ := Except.bind_eq_ok.mp h
    obtain rfl := Except.ok.inj h
    rcases List.mem_cons.mp hy with rfl | hy
    · exact ⟨x, List.mem_cons_self, hfirst⟩
    · obtain ⟨x', hx', hf⟩ := ih hrest hy
      exact ⟨x', List.mem_cons_of_mem _ hx', hf⟩

theorem Except.mem_of_mapM {ε α β : Type} {f : α → Except ε β} {xs : List α} {ys : List β}
    (h : xs.mapM f = .ok ys) {x : α} {y : β} (hx : x ∈ xs) (hf : f x = .ok y) : y ∈ ys := by
  induction xs generalizing ys with
  | nil => simp at hx
  | cons first xs ih =>
    rw [List.mapM_cons] at h
    obtain ⟨y₀, hfirst, h⟩ := Except.bind_eq_ok.mp h
    obtain ⟨rest, hrest, h⟩ := Except.bind_eq_ok.mp h
    obtain rfl := Except.ok.inj h
    rcases List.mem_cons.mp hx with rfl | hx
    · rw [hf] at hfirst
      obtain rfl := Except.ok.inj hfirst
      exact List.mem_cons_self
    · exact List.mem_cons_of_mem _ (ih hrest hx)

namespace Storage

variable {ε σ α β : Type}

instance : Monad (Storage ε σ) where
  pure a := fun c => (.ok a, c)
  bind x f := fun c =>
    match x c with
    | (.ok a, c) => f a c
    | (.error e, c) => (.error e, c)

/-- One statement of the store; `e` wraps the error it fails with. -/
def statement (e : String → ε) (f : σ → α × σ) : Storage ε σ α := fun c =>
  match c.faults.headD none with
  | some error => (.error (e error), ⟨c.store, c.faults.tail⟩)
  | none => (.ok (f c.store).1, ⟨(f c.store).2, c.faults.tail⟩)

def query (e : String → ε) (f : σ → α) : Storage ε σ α := statement e fun s => (f s, s)

def execute (e : String → ε) (f : σ → σ) : Storage ε σ Unit := statement e fun s => ((), f s)

/-- Reads what lives beside the stored rows; this cannot fail. -/
def get : Storage ε σ σ := fun c => (.ok c.store, c)

/-- Changes what lives beside the stored rows. -/
def modify (f : σ → σ) : Storage ε σ Unit := fun c => (.ok (), { c with store := f c.store })

/-- A computation that does not touch the store. -/
def ofExcept (x : Except ε α) : Storage ε σ α := fun c => (x, c)

/-- Runs the action between its begin and commit statements; an error rolls the
store back to where it began. -/
def transaction (e : String → ε) (x : Storage ε σ α) : Storage ε σ α := fun c =>
  match (execute e id >>= fun _ => x >>= fun a => execute e id >>= fun _ => pure a) c with
  | (.ok a, c') => (.ok a, c')
  | (.error e, c') => (.error e, ⟨c.store, c'.faults⟩)

@[simp] theorem pure_apply (a : α) (c : Conn σ) : (pure a : Storage ε σ α) c = (.ok a, c) := rfl

theorem bind_apply (x : Storage ε σ α) (f : α → Storage ε σ β) (c : Conn σ) :
    (x >>= f) c = match x c with
      | (.ok a, c) => f a c
      | (.error e, c) => (.error e, c) := rfl

theorem bind_assoc {γ : Type} (x : Storage ε σ α) (f : α → Storage ε σ β) (g : β → Storage ε σ γ) :
    (x >>= f) >>= g = x >>= fun a => f a >>= g := by
  funext c
  simp only [bind_apply]
  rcases x c with ⟨_ | _, _⟩ <;> rfl

theorem bind_of_ok {x : Storage ε σ α} {f : α → Storage ε σ β} {c c' : Conn σ} {a : α}
    (h : x c = (.ok a, c')) : (x >>= f) c = f a c' := by
  rw [bind_apply, h]

theorem bind_of_error {x : Storage ε σ α} {f : α → Storage ε σ β} {c c' : Conn σ} {e : ε}
    (h : x c = (.error e, c')) : (x >>= f) c = (.error e, c') := by
  rw [bind_apply, h]

theorem statement_of_none {e : String → ε} {f : σ → α × σ} {c : Conn σ}
    (h : c.faults.headD none = none) :
    statement e f c = (.ok (f c.store).1, ⟨(f c.store).2, c.faults.tail⟩) := by
  unfold statement
  rw [h]

theorem statement_of_some {e : String → ε} {f : σ → α × σ} {c : Conn σ} {error : String}
    (h : c.faults.headD none = some error) :
    statement e f c = (.error (e error), ⟨c.store, c.faults.tail⟩) := by
  unfold statement
  rw [h]

theorem fst_bind_eq_ok {x : Storage ε σ α} {f : α → Storage ε σ β} {c : Conn σ} {b : β} :
    ((x >>= f) c).1 = .ok b ↔ ∃ a c₁, x c = (.ok a, c₁) ∧ (f a c₁).1 = .ok b := by
  rw [bind_apply]
  constructor
  · intro h
    split at h
    · next a c₁ hx => exact ⟨a, c₁, hx, h⟩
    · simp at h
  · rintro ⟨a, c₁, hx, hf⟩
    rw [hx]
    exact hf

/-! ## Weakest preconditions

One postcondition for the end of an action and one for where an error leaves the
store; the rules compute them along the text of the action.
-/

/-- From `c` the action ends in `Q`, or stops in `E`. -/
def wp (x : Storage ε σ α) (Q : α → Conn σ → Prop) (E : ε → Conn σ → Prop) (c : Conn σ) : Prop :=
  match x c with
  | (.ok a, c) => Q a c
  | (.error e, c) => E e c

section Rules

variable {Q : α → Conn σ → Prop} {E : ε → Conn σ → Prop} {c : Conn σ}

theorem wp_bind {x : Storage ε σ β} {f : β → Storage ε σ α} :
    wp (x >>= f) Q E c ↔ wp x (fun b c => wp (f b) Q E c) E c := by
  simp only [wp, bind_apply]
  rcases x c with ⟨_ | _, _⟩ <;> rfl

theorem wp_ofExcept {x : Except ε α} :
    wp (ofExcept x) Q E c ↔ (∀ a, x = .ok a → Q a c) ∧ ∀ e, x = .error e → E e c := by
  cases x <;> simp [wp, ofExcept]

theorem wp_statement {e : String → ε} {f : σ → α × σ} :
    wp (statement e f) Q E c ↔
      (c.faults.headD none = none → Q (f c.store).1 ⟨(f c.store).2, c.faults.tail⟩) ∧
        ∀ error, c.faults.headD none = some error → E (e error) ⟨c.store, c.faults.tail⟩ := by
  unfold wp statement
  cases c.faults.headD none <;> simp

theorem wp_query {e : String → ε} {f : σ → α} :
    wp (query e f) Q E c ↔
      (c.faults.headD none = none → Q (f c.store) ⟨c.store, c.faults.tail⟩) ∧
        ∀ error, c.faults.headD none = some error → E (e error) ⟨c.store, c.faults.tail⟩ :=
  wp_statement

theorem wp_execute {e : String → ε} {f : σ → σ} {Q : Unit → Conn σ → Prop} :
    wp (execute e f) Q E c ↔
      (c.faults.headD none = none → Q () ⟨f c.store, c.faults.tail⟩) ∧
        ∀ error, c.faults.headD none = some error → E (e error) ⟨c.store, c.faults.tail⟩ :=
  wp_statement

theorem wp_mono {x : Storage ε σ α} {Q' : α → Conn σ → Prop} {E' : ε → Conn σ → Prop}
    (h : wp x Q E c) (hQ : ∀ a c, Q a c → Q' a c) (hE : ∀ e c, E e c → E' e c) :
    wp x Q' E' c := by
  unfold wp at h ⊢
  split at h
  · exact hQ _ _ h
  · exact hE _ _ h

theorem wp_of_fst_eq_ok {x : Storage ε σ α} {a : α} (h : wp x Q E c) (hx : (x c).1 = .ok a) :
    Q a (x c).2 := by
  unfold wp at h
  generalize x c = result at h hx
  obtain ⟨_, c'⟩ := result
  obtain rfl := hx
  exact h

end Rules

/-- An action that ends went through both of its parts. -/
theorem bind_eq_ok {x : Storage ε σ α} {f : α → Storage ε σ β} {c c' : Conn σ} {b : β} :
    (x >>= f) c = (.ok b, c') ↔ ∃ a c₁, x c = (.ok a, c₁) ∧ f a c₁ = (.ok b, c') := by
  rw [bind_apply]
  constructor
  · intro h
    split at h
    · next a c₁ hx => exact ⟨a, c₁, hx, h⟩
    · simp at h
  · rintro ⟨a, c₁, hx, hf⟩
    rw [hx]
    exact hf

theorem exists_of_isOk {x : Storage ε σ α} {c : Conn σ} (h : (x c).1.isOk = true) :
    ∃ a c', x c = (.ok a, c') := by
  generalize x c = result at h
  obtain ⟨_ | a, c'⟩ := result
  · simp [Except.isOk, Except.toBool] at h
  · exact ⟨a, c', rfl⟩

/-! ## Actions that only read -/

def ReadOnly (x : Storage ε σ α) : Prop := ∀ c, (x c).2.store = c.store

theorem ReadOnly.pure {a : α} : (pure a : Storage ε σ α).ReadOnly := fun _ => rfl

theorem ReadOnly.ofExcept {x : Except ε α} : (ofExcept x : Storage ε σ α).ReadOnly := fun _ => rfl

theorem ReadOnly.query {e : String → ε} {f : σ → α} : (query e f).ReadOnly := by
  intro c
  simp only [Storage.query, statement]
  split <;> rfl

theorem ReadOnly.bind {x : Storage ε σ α} {f : α → Storage ε σ β} (hx : x.ReadOnly)
    (hf : ∀ a, (f a).ReadOnly) : (x >>= f).ReadOnly := by
  intro c
  have h := hx c
  rw [bind_apply]
  generalize x c = result at h
  obtain ⟨_ | a, c'⟩ := result
  · exact h
  · exact (hf a c').trans h

theorem ReadOnly.wp {x : Storage ε σ α} {Q : α → Conn σ → Prop} {E : ε → Conn σ → Prop}
    {c : Conn σ} (hx : x.ReadOnly) (hQ : ∀ a c', c'.store = c.store → Q a c')
    (hE : ∀ e c', c'.store = c.store → E e c') : wp x Q E c := by
  have h := hx c
  unfold Storage.wp
  generalize x c = result at h
  obtain ⟨_ | a, c'⟩ := result
  · exact hE _ _ h
  · exact hQ _ _ h

/-! ## Partial correctness

What holds of the result and of the store whenever an action ends, whatever
statements may fail.
-/

def Ends (x : Storage ε σ α) (Q : α → σ → Prop) (s : σ) : Prop :=
  ∀ faults a c, x ⟨s, faults⟩ = (.ok a, c) → Q a c.store

namespace Ends

variable {Q Q' : α → σ → Prop} {s : σ} {x : Storage ε σ α}

theorem of_eq (h : Ends x Q s) {c c' : Conn σ} {a : α} (hx : x c = (.ok a, c'))
    (hc : c.store = s) : Q a c'.store := by
  obtain ⟨store, faults⟩ := c
  obtain rfl : store = s := hc
  exact h faults a c' hx

theorem mono (h : Ends x Q s) (hq : ∀ a s, Q a s → Q' a s) : Ends x Q' s :=
  fun faults a c hx => hq _ _ (h faults a c hx)

theorem and (h : Ends x Q s) (h' : Ends x Q' s) : Ends x (fun a s => Q a s ∧ Q' a s) s :=
  fun faults a c hx => ⟨h faults a c hx, h' faults a c hx⟩

theorem pure {a : α} (h : Q a s) : Ends (pure a : Storage ε σ α) Q s := by
  rintro faults _ _ ⟨rfl, rfl⟩
  exact h

theorem ofExcept {y : Except ε α} (h : ∀ a, y = .ok a → Q a s) :
    Ends (Storage.ofExcept y) Q s := by
  intro faults a c hx
  obtain ⟨hy, rfl⟩ := Prod.mk.inj hx
  exact h a hy

theorem bind {y : Storage ε σ β} {f : β → Storage ε σ α}
    (h : Ends y (fun b s => Ends (f b) Q s) s) : Ends (y >>= f) Q s := by
  intro faults a c hx
  obtain ⟨b, c₁, hy, hf⟩ := bind_eq_ok.mp hx
  exact (h faults b c₁ hy).of_eq hf rfl

theorem get {Q : σ → σ → Prop} (h : Q s s) : Ends (Storage.get : Storage ε σ σ) Q s := by
  rintro faults _ _ ⟨rfl, rfl⟩
  exact h

theorem modify {f : σ → σ} {Q : Unit → σ → Prop} (h : Q () (f s)) :
    Ends (Storage.modify f : Storage ε σ Unit) Q s := by
  rintro faults _ _ ⟨rfl, rfl⟩
  exact h

theorem statement {e : String → ε} {f : σ → α × σ} (h : Q (f s).1 (f s).2) :
    Ends (Storage.statement e f) Q s := by
  intro faults a c hx
  unfold Storage.statement at hx
  split at hx
  · simp at hx
  · obtain ⟨rfl, rfl⟩ := hx
    exact h

theorem query {e : String → ε} {f : σ → α} (h : Q (f s) s) : Ends (Storage.query e f) Q s :=
  statement h

theorem execute {e : String → ε} {f : σ → σ} {Q : Unit → σ → Prop} (h : Q () (f s)) :
    Ends (Storage.execute e f) Q s :=
  statement h

/-- A transaction that ends did what its action does. -/
theorem transaction {e : String → ε} (h : Ends x Q s) : Ends (Storage.transaction e x) Q s := by
  intro faults a c hx
  unfold Storage.transaction at hx
  split at hx
  · next a' c' hrun =>
    obtain ⟨rfl, rfl⟩ := hx
    refine Ends.of_eq (s := s) ?_ hrun rfl
    refine .bind (.execute (.bind (h.mono fun a s hq => ?_)))
    exact .bind (.execute (.pure hq))
  · simp at hx

/-- A loop, by an invariant of what it has gone through so far. -/
theorem foldlM {I : List β → α → σ → Prop} {f : α → β → Storage ε σ α} {items : List β} {a : α}
    (h : ∀ earlier item later a s, items = earlier ++ item :: later → I earlier a s →
      Ends (f a item) (I (earlier ++ [item])) s) (h0 : I [] a s) :
    Ends (items.foldlM f a) (I items) s := by
  suffices ∀ earlier later a s, items = earlier ++ later → I earlier a s →
      Ends (later.foldlM f a) (I items) s from this [] items a s rfl h0
  intro earlier later
  induction later generalizing earlier with
  | nil =>
    intro a s hitems hI
    rw [List.append_nil] at hitems
    rw [hitems]
    exact .pure hI
  | cons item later ih =>
    intro a s hitems hI
    refine .bind ((h earlier item later a s hitems hI).mono fun a s hI' => ?_)
    refine ih (earlier ++ [item]) a s ?_ hI'
    rw [hitems, List.append_assoc]
    rfl

theorem forM {I : List β → σ → Prop} {f : β → Storage ε σ Unit} {items : List β}
    (h : ∀ earlier item later s, items = earlier ++ item :: later → I earlier s →
      Ends (f item) (fun _ => I (earlier ++ [item])) s) (h0 : I [] s) :
    Ends (items.forM f) (fun _ => I items) s := by
  suffices ∀ earlier later s, items = earlier ++ later → I earlier s →
      Ends (later.forM f) (fun _ => I items) s from this [] items s rfl h0
  intro earlier later
  induction later generalizing earlier with
  | nil =>
    intro s hitems hI
    rw [List.append_nil] at hitems
    rw [hitems]
    exact .pure hI
  | cons item later ih =>
    intro s hitems hI
    refine .bind ((h earlier item later s hitems hI).mono fun _ s hI' => ?_)
    refine ih (earlier ++ [item]) s ?_ hI'
    rw [hitems, List.append_assoc]
    rfl

end Ends

/-! ## Reading -/

/-- An action that changes nothing, and comes to `f` of the store when no statement fails. -/
structure Computes (x : Storage ε σ α) (f : σ → Except ε α) : Prop where
  runs : ∀ s, x ⟨s, []⟩ = (f s, ⟨s, []⟩)
  ends : ∀ s, Ends x (fun a s' => f s = .ok a ∧ s' = s) s

namespace Computes

theorem pure {a : α} : Computes (Pure.pure a : Storage ε σ α) fun _ => .ok a where
  runs _ := rfl
  ends _ := .pure ⟨rfl, rfl⟩

theorem ofExcept {y : Except ε α} : Computes (Storage.ofExcept y : Storage ε σ α) fun _ => y where
  runs _ := rfl
  ends _ := .ofExcept fun _ h => ⟨h, rfl⟩

theorem get : Computes (Storage.get : Storage ε σ σ) .ok where
  runs _ := rfl
  ends _ := .get ⟨rfl, rfl⟩

theorem query {e : String → ε} {f : σ → α} : Computes (Storage.query e f) fun s => .ok (f s) where
  runs _ := rfl
  ends _ := .query ⟨rfl, rfl⟩

theorem congr {x : Storage ε σ α} {f g : σ → Except ε α} (hx : Computes x f) (h : ∀ s, f s = g s) :
    Computes x g := funext h ▸ hx

theorem bind {x : Storage ε σ α} {y : α → Storage ε σ β} {f : σ → Except ε α}
    {g : α → σ → Except ε β} (hx : Computes x f) (hy : ∀ a, Computes (y a) (g a)) :
    Computes (x >>= y) fun s => f s >>= fun a => g a s where
  runs s := by
    have hrun := hx.runs s
    cases hf : f s with
    | error error =>
      rw [hf] at hrun
      rw [bind_of_error hrun]
      rfl
    | ok a =>
      rw [hf] at hrun
      rw [bind_of_ok hrun]
      exact (hy a).runs s
  ends s := by
    refine .bind ((hx.ends s).mono ?_)
    rintro a s' ⟨hf, rfl⟩
    refine ((hy a).ends s').mono ?_
    rintro b s'' ⟨hg, hs⟩
    exact ⟨Except.bind_eq_ok.mpr ⟨a, hf, hg⟩, hs⟩

end Computes

end Storage
