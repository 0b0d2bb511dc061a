import Mathlib.Data.Nat.Find
import ZimaScope.Lib.Storage

/-! # Faults at every statement

What an action goes through when no statement fails says what it leaves when
one does: the store as it was at the start of that statement, or of the
transaction around it.
-/

namespace Storage

variable {ε σ α β : Type} {s s₁ s' : σ} {a : α} {b : β}

/-- Without a fault the action leads from `s` to `s'` with the result `a`; when statement `n`
is the first to fail, it stops with the store at entry `n`. -/
structure Trail (x : Storage ε σ α) (s : σ) (stops : List σ) (a : α) (s' : σ) : Prop where
  ends : ∀ faults, (∀ fault ∈ faults.take stops.length, fault = none) →
    x ⟨s, faults⟩ = (.ok a, ⟨s', faults.drop stops.length⟩)
  fails : ∀ faults n error stop, (∀ fault ∈ faults.take n, fault = none) →
    faults[n]? = some (some error) → stops[n]? = some stop →
      ∃ e, x ⟨s, faults⟩ = (.error e, ⟨stop, faults.drop (n + 1)⟩)

namespace Trail

theorem pure : Trail (pure a : Storage ε σ α) s [] a s where
  ends _ _ := rfl
  fails _ _ _ _ _ _ h := by simp at h

theorem get : Trail (Storage.get : Storage ε σ σ) s [] s s where
  ends _ _ := rfl
  fails _ _ _ _ _ _ h := by simp at h

theorem modify {f : σ → σ} : Trail (Storage.modify f : Storage ε σ Unit) s [] () (f s) where
  ends _ _ := rfl
  fails _ _ _ _ _ _ h := by simp at h

theorem statement {e : String → ε} {f : σ → α × σ} :
    Trail (Storage.statement e f) s [s] (f s).1 (f s).2 where
  ends faults hnone := by
    unfold Storage.statement
    cases faults with
    | nil => rfl
    | cons fault faults =>
      obtain rfl : fault = none := hnone fault (by simp)
      rfl
  fails faults n error stop _ hfault hstop := by
    obtain ⟨rfl, rfl⟩ : n = 0 ∧ stop = s := by
      cases n with
      | zero => exact ⟨rfl, by simpa using hstop.symm⟩
      | succ n => simp at hstop
    cases faults with
    | nil => simp at hfault
    | cons fault faults =>
      obtain rfl : fault = some error := by simpa using hfault
      exact ⟨e error, rfl⟩

theorem query {e : String → ε} {f : σ → α} : Trail (Storage.query e f) s [s] (f s) s :=
  statement

theorem execute {e : String → ε} {f : σ → σ} : Trail (Storage.execute e f) s [s] () (f s) :=
  statement

theorem bind {x : Storage ε σ α} {f : α → Storage ε σ β} {stops stops' : List σ}
    (hx : Trail x s stops a s₁) (hf : Trail (f a) s₁ stops' b s') :
    Trail (x >>= f) s (stops ++ stops') b s' where
  ends faults hnone := by
    rw [List.length_append, List.take_add] at hnone
    have hends := hx.ends faults fun fault h => hnone fault (List.mem_append_left _ h)
    rw [bind_of_ok hends, hf.ends _ fun fault h => hnone fault (List.mem_append_right _ h),
      List.drop_drop, List.length_append]
  fails faults n error stop hnone hfault hstop := by
    rcases Nat.lt_or_ge n stops.length with hn | hn
    · rw [List.getElem?_append_left hn] at hstop
      obtain ⟨e, he⟩ := hx.fails faults n error stop hnone hfault hstop
      exact ⟨e, bind_of_error he⟩
    · rw [List.getElem?_append_right hn] at hstop
      obtain ⟨m, rfl⟩ := Nat.exists_eq_add_of_le hn
      rw [List.take_add] at hnone
      rw [Nat.add_sub_cancel_left] at hstop
      have hends := hx.ends faults fun fault h => hnone fault (List.mem_append_left _ h)
      obtain ⟨e, he⟩ := hf.fails (faults.drop stops.length) m error stop
        (fun fault h => hnone fault (List.mem_append_right _ h)) (by rw [List.getElem?_drop, hfault])
        hstop
      refine ⟨e, ?_⟩
      rw [bind_of_ok hends, he, List.drop_drop, Nat.add_assoc]

/-- Whatever statement fails in it, a transaction leaves the store as it was. -/
theorem transaction {e : String → ε} {x : Storage ε σ α} {stops : List σ}
    (hx : Trail x s stops a s') :
    Trail (Storage.transaction e x) s (List.replicate (stops.length + 2) s) a s' := by
  have hrun : Trail (Storage.execute e id >>= fun _ => x >>= fun a =>
      Storage.execute e id >>= fun _ => Pure.pure a) s ([s] ++ (stops ++ ([s'] ++ []))) a s' :=
    bind execute (bind hx (bind execute pure))
  have hlength : ([s] ++ (stops ++ ([s'] ++ []))).length = stops.length + 2 := by simp
  constructor
  · intro faults hnone
    rw [List.length_replicate] at hnone ⊢
    have hends := hrun.ends faults (hlength.symm ▸ hnone)
    unfold Storage.transaction
    rw [hends, hlength]
  · intro faults n error stop hnone hfault hstop
    obtain ⟨hn, rfl⟩ := List.getElem?_eq_some_iff.mp hstop
    rw [List.length_replicate, ← hlength] at hn
    obtain ⟨e', he⟩ := hrun.fails faults n error _ hnone hfault (List.getElem?_eq_getElem hn)
    refine ⟨e', ?_⟩
    unfold Storage.transaction
    rw [he, List.getElem_replicate]

theorem foldlM_cons {f : α → β → Storage ε σ α} {item : β} {items : List β} {a₁ a' : α}
    {stops stops' : List σ} (hf : Trail (f a item) s stops a₁ s₁)
    (hitems : Trail (items.foldlM f a₁) s₁ stops' a' s') :
    Trail ((item :: items).foldlM f a) s (stops ++ stops') a' s' := by
  rw [List.foldlM_cons]
  exact hf.bind hitems

theorem forM_cons {f : β → Storage ε σ Unit} {item : β} {items : List β}
    {stops stops' : List σ} (hf : Trail (f item) s stops () s₁)
    (hitems : Trail (items.forM f) s₁ stops' () s') :
    Trail ((item :: items).forM f) s (stops ++ stops') () s' :=
  hf.bind hitems

variable {x : Storage ε σ α} {stops : List σ}

/-- An action that meets a fault stops at the first one. -/
theorem stops_of_fault (h : Trail x s stops a s') {faults : List (Option String)}
    (hfault : ¬∀ fault ∈ faults.take stops.length, fault = none) :
    ∃ stop ∈ stops, ∃ e rest, x ⟨s, faults⟩ = (.error e, ⟨stop, rest⟩) := by
  have hexists : ∃ n, n < stops.length ∧ ∃ error, faults[n]? = some (some error) := by
    simp only [not_forall] at hfault
    obtain ⟨fault, hmem, hne⟩ := hfault
    obtain ⟨n, hn, rfl⟩ := List.mem_iff_getElem.mp hmem
    obtain ⟨error, herror⟩ := Option.ne_none_iff_exists'.mp hne
    rw [List.getElem_take] at herror
    rw [List.length_take] at hn
    exact ⟨n, by omega, error, by rw [List.getElem?_eq_getElem (by omega), herror]⟩
  classical
  have hfirst := Nat.find_spec hexists
  have hbefore := fun n => Nat.find_min hexists (m := n)
  generalize Nat.find hexists = first at hfirst hbefore
  obtain ⟨hlt, error, herror⟩ := hfirst
  have hprefix : ∀ fault ∈ faults.take first, fault = none := by
    intro fault hfault
    obtain ⟨n, hn, rfl⟩ := List.mem_iff_getElem.mp hfault
    rw [List.length_take] at hn
    by_contra hne
    obtain ⟨error', herror'⟩ := Option.ne_none_iff_exists'.mp hne
    rw [List.getElem_take] at herror'
    refine hbefore n (by omega) ⟨by omega, error', ?_⟩
    rw [List.getElem?_eq_getElem (by omega), herror']
  obtain ⟨e, he⟩ := h.fails faults first error _ hprefix herror (List.getElem?_eq_getElem hlt)
  exact ⟨_, List.getElem_mem hlt, e, _, he⟩

/-- A list of faults has a first one, or none that the action meets. -/
theorem ends_or_fails (h : Trail x s stops a s') (faults : List (Option String)) :
    (∃ rest, x ⟨s, faults⟩ = (.ok a, ⟨s', rest⟩)) ∨
      ∃ stop ∈ stops, ∃ e rest, x ⟨s, faults⟩ = (.error e, ⟨stop, rest⟩) := by
  by_cases hnone : ∀ fault ∈ faults.take stops.length, fault = none
  · exact Or.inl ⟨_, h.ends faults hnone⟩
  · exact Or.inr (h.stops_of_fault hnone)

/-- What holds wherever the action may stop. -/
theorem stops_iff (h : Trail x s stops a s') {P : σ → Prop} :
    (∀ faults e c, x ⟨s, faults⟩ = (.error e, c) → P c.store) ↔ ∀ stop ∈ stops, P stop := by
  constructor
  · intro hall stop hstop
    obtain ⟨n, hn, rfl⟩ := List.mem_iff_getElem.mp hstop
    obtain ⟨e, he⟩ := h.fails (List.replicate n none ++ [some ""]) n "" stops[n]
      (fun fault hfault => by simp_all) (by simp) (List.getElem?_eq_getElem hn)
    exact hall _ e _ he
  · intro hall faults e c hx
    rcases h.ends_or_fails faults with ⟨rest, hok⟩ | ⟨stop, hmem, e', rest, herror⟩
    · rw [hok] at hx
      simp at hx
    · rw [herror] at hx
      obtain ⟨-, rfl⟩ := Prod.ext_iff.mp hx
      exact hall stop hmem

/-- What holds at its end and wherever it may stop. -/
theorem leaves (h : Trail x s stops a s') {P : σ → Prop} (hend : P s') (hstops : ∀ stop ∈ stops, P stop)
    (faults : List (Option String)) : P (x ⟨s, faults⟩).2.store := by
  rcases h.ends_or_fails faults with ⟨rest, hok⟩ | ⟨stop, hmem, e, rest, herror⟩
  · rw [hok]
    exact hend
  · rw [herror]
    exact hstops stop hmem

end Trail

/-- The stores at which the statements start. -/
def starts : List (σ → σ) → σ → List σ
  | [], _ => []
  | f :: fs, s => s :: starts fs (f s)

theorem length_starts (fs : List (σ → σ)) (s : σ) : (starts fs s).length = fs.length := by
  induction fs generalizing s with
  | nil => rfl
  | cons f fs ih => exact congrArg Nat.succ (ih (f s))

theorem Trail.forM_execute {e : String → ε} {fs : List (σ → σ)} :
    Trail (fs.forM (Storage.execute e)) s (starts fs s) () (fs.foldl (fun s f => f s) s) := by
  induction fs generalizing s with
  | nil => exact .pure
  | cons f fs ih => exact .forM_cons .execute ih

theorem mem_starts_append {fs gs : List (σ → σ)} {stop : σ} : stop ∈ starts (fs ++ gs) s ↔
    stop ∈ starts fs s ∨ stop ∈ starts gs (fs.foldl (fun s f => f s) s) := by
  induction fs generalizing s with
  | nil => simp [starts]
  | cons f fs ih =>
    change stop ∈ s :: starts (fs ++ gs) (f s) ↔ stop ∈ s :: starts fs (f s) ∨ _
    rw [List.mem_cons, List.mem_cons, ih, or_assoc]
    rfl

/-- Statements that keep a property. -/
theorem forall_starts {P : σ → Prop} {fs : List (σ → σ)} (h : ∀ f ∈ fs, ∀ s, P s → P (f s))
    (hs : P s) : ∀ stop ∈ starts fs s, P stop := by
  induction fs generalizing s with
  | nil =>
    intro stop hstop
    cases hstop
  | cons f fs ih =>
    intro stop hstop
    rcases List.mem_cons.mp hstop with rfl | hstop
    · exact hs
    · exact ih (fun g hg => h g (List.mem_cons_of_mem _ hg)) (h f List.mem_cons_self s hs) stop hstop

section Statements

variable {e : String → ε} {P : σ → Prop} {fs : List (σ → σ)} {c : Conn σ}

theorem take_succ_eq_none {faults : List (Option String)} {n : ℕ} :
    (∀ fault ∈ faults.take (n + 1), fault = none) ↔
      faults.headD none = none ∧ ∀ fault ∈ faults.tail.take n, fault = none := by
  cases faults <;> simp

/-- Statements that keep a property both ways. -/
theorem forM_execute_iff (h : ∀ f ∈ fs, ∀ s, P (f s) ↔ P s) :
    P (fs.forM (execute e) c).2.store ↔ P c.store := by
  induction fs generalizing c with
  | nil => rfl
  | cons f fs ih =>
    have hrest := fun c => ih (c := c) fun g hg => h g (List.mem_cons_of_mem _ hg)
    change P ((execute e f >>= fun _ => fs.forM (execute e)) c).2.store ↔ _
    cases hfault : c.faults.headD none with
    | none =>
      rw [bind_of_ok (x := execute e f) (statement_of_none hfault), hrest]
      exact h f List.mem_cons_self c.store
    | some error => rw [bind_of_error (x := execute e f) (statement_of_some hfault)]

/-- One statement brings a property about, and the others keep it both ways. -/
theorem forM_execute_iff_ran {before after : List (σ → σ)} {f : σ → σ} (hf : ∀ s, P (f s))
    (hbefore : ∀ g ∈ before, ∀ s, P (g s) ↔ P s) (hafter : ∀ g ∈ after, ∀ s, P (g s) ↔ P s) :
    P ((before ++ f :: after).forM (execute e) c).2.store ↔
      (∀ fault ∈ c.faults.take (before.length + 1), fault = none) ∨ P c.store := by
  induction before generalizing c with
  | nil =>
    change P ((execute e f >>= fun _ => after.forM (execute e)) c).2.store ↔ _
    rw [List.length_nil, take_succ_eq_none]
    cases hfault : c.faults.headD none with
    | none =>
      rw [bind_of_ok (x := execute e f) (statement_of_none hfault), forM_execute_iff hafter]
      simp [hf]
    | some error =>
      rw [bind_of_error (x := execute e f) (statement_of_some hfault)]
      simp
  | cons g before ih =>
    have hrest := fun c => ih (c := c) fun g' hg' => hbefore g' (List.mem_cons_of_mem _ hg')
    change P ((execute e g >>= fun _ => (before ++ f :: after).forM (execute e)) c).2.store ↔ _
    rw [List.length_cons, take_succ_eq_none]
    cases hfault : c.faults.headD none with
    | none =>
      rw [bind_of_ok (x := execute e g) (statement_of_none hfault), hrest]
      simp [hbefore g List.mem_cons_self]
    | some error =>
      rw [bind_of_error (x := execute e g) (statement_of_some hfault)]
      simp

end Statements

/-! ## Actions that run to their end -/

/-- Without a fault the action ends, wherever it starts. -/
def Runs (x : Storage ε σ α) : Prop := ∀ s, ∃ stops a s', Trail x s stops a s'

namespace Runs

theorem pure : Runs (pure a : Storage ε σ α) := fun s => ⟨[], a, s, .pure⟩

theorem get : Runs (Storage.get : Storage ε σ σ) := fun s => ⟨[], s, s, .get⟩

theorem modify {f : σ → σ} : Runs (Storage.modify f : Storage ε σ Unit) :=
  fun s => ⟨[], (), f s, .modify⟩

theorem query {e : String → ε} {f : σ → α} : Runs (Storage.query e f) :=
  fun s => ⟨[s], f s, s, .query⟩

theorem execute {e : String → ε} {f : σ → σ} : Runs (Storage.execute e f) :=
  fun s => ⟨[s], (), f s, .execute⟩

theorem bind {x : Storage ε σ α} {f : α → Storage ε σ β} (hx : Runs x) (hf : ∀ a, Runs (f a)) :
    Runs (x >>= f) := by
  intro s
  obtain ⟨stops, a, s₁, hx⟩ := hx s
  obtain ⟨stops', b, s', hf⟩ := hf a s₁
  exact ⟨_, b, s', hx.bind hf⟩

theorem transaction {e : String → ε} {x : Storage ε σ α} (hx : Runs x) :
    Runs (Storage.transaction e x) := by
  intro s
  obtain ⟨stops, a, s', hx⟩ := hx s
  exact ⟨_, a, s', hx.transaction⟩

theorem foldlM {f : α → β → Storage ε σ α} {items : List β} (hf : ∀ a item, Runs (f a item))
    (a : α) : Runs (items.foldlM f a) := by
  induction items generalizing a with
  | nil => exact pure
  | cons item items ih =>
    rw [List.foldlM_cons]
    exact (hf a item).bind ih

theorem forM {f : β → Storage ε σ Unit} {items : List β} (hf : ∀ item, Runs (f item)) :
    Runs (items.forM f) := by
  induction items with
  | nil => exact pure
  | cons item items ih => exact (hf item).bind fun _ => ih

end Runs

/-! ## Cut off on the way -/

/-- A statement that the store may reject. -/
def attempt (e : String → ε) (f : σ → Except String σ) : Storage ε σ Unit := do
  let result ← statement e fun s =>
    match f s with
    | .ok s' => (.ok (), s')
    | .error error => (.error (e error), s)
  ofExcept result

theorem attempt_of_ok {e : String → ε} {f : σ → Except String σ} {c : Conn σ}
    (h : f c.store = .ok s') (hfault : c.faults.headD none = none) :
    attempt e f c = (.ok (), ⟨s', c.faults.tail⟩) := by
  unfold attempt
  rw [bind_of_ok (statement_of_none hfault), h]
  rfl

/-- What the store rejects, or a fault stops, leaves it as it was. -/
theorem attempt_of_refused {e : String → ε} {f : σ → Except String σ} {c : Conn σ}
    (h : (∃ error, f c.store = .error error) ∨ c.faults.headD none ≠ none) :
    ∃ error, attempt e f c = (.error error, ⟨c.store, c.faults.tail⟩) := by
  unfold attempt
  cases hfault : c.faults.headD none with
  | some error => exact ⟨_, bind_of_error (statement_of_some hfault)⟩
  | none =>
    rcases h with ⟨error, h⟩ | h
    · rw [bind_of_ok (statement_of_none hfault), h]
      exact ⟨_, rfl⟩
    · exact absurd hfault h

theorem Trail.attempt {e : String → ε} {f : σ → Except String σ} (h : f s = .ok s') :
    Trail (Storage.attempt e f) s [s] () s' := by
  have hstatement : Trail (Storage.statement e fun s =>
      match f s with
      | .ok s' => (Except.ok (), s')
      | .error error => (.error (e error), s)) s [s] (.ok ()) s' := by
    have hrun := Trail.statement (e := e) (s := s) (f := fun s =>
      match f s with
      | .ok s' => (Except.ok (), s')
      | .error error => (.error (e error), s))
    rwa [h] at hrun
  have hend : Trail (ofExcept (.ok ()) : Storage ε σ Unit) s' [] () s' :=
    ⟨fun _ _ => rfl, fun _ _ _ _ _ _ h => by simp at h⟩
  exact hstatement.bind hend

/-- A transaction that does not get through leaves the store as it was. -/
theorem store_of_transaction_error {e : String → ε} {x : Storage ε σ α} {c c' : Conn σ} {error : ε}
    (h : Storage.transaction e x c = (.error error, c')) : c'.store = c.store := by
  unfold Storage.transaction at h
  split at h
  · simp at h
  · obtain ⟨-, rfl⟩ := Prod.ext_iff.mp h
    rfl

theorem Ends.attempt {e : String → ε} {f : σ → Except String σ} {Q : Unit → σ → Prop}
    (h : ∀ s', f s = .ok s' → Q () s') : Ends (Storage.attempt e f) Q s := by
  refine .bind (.statement ?_)
  cases hf : f s with
  | ok s' => exact .ofExcept fun _ _ => h s' hf
  | error error => exact .ofExcept fun _ hok => absurd hok (by simp)

/-- Runs the action if the condition holds. -/
def guarded (c : Prop) [Decidable c] (x : Storage ε σ Unit) : Storage ε σ Unit :=
  if c then x else Pure.pure ()

theorem Ends.guarded {c : Prop} [Decidable c] {x : Storage ε σ Unit} {Q : Unit → σ → Prop}
    (hc : c → Ends x Q s) (hn : ¬ c → Q () s) : Ends (Storage.guarded c x) Q s := by
  unfold Storage.guarded
  split
  · next h => exact hc h
  · next h => exact .pure (hn h)

/-- Whether it ends or not, the action keeps an invariant of the store. -/
def Keeps (x : Storage ε σ α) (I : σ → Prop) : Prop := ∀ c, I c.store → I (x c).2.store

namespace Keeps

variable {x : Storage ε σ α} {I : σ → Prop}

theorem pure : Keeps (pure a : Storage ε σ α) I := fun _ h => h

theorem statement {e : String → ε} {f : σ → α × σ} (h : ∀ s, I s → I (f s).2) :
    Keeps (Storage.statement e f) I := by
  intro c hc
  unfold Storage.statement
  split
  · exact hc
  · exact h _ hc

theorem query {e : String → ε} {f : σ → α} : Keeps (Storage.query e f) I :=
  statement fun _ h => h

theorem execute {e : String → ε} {f : σ → σ} (h : ∀ s, I s → I (f s)) :
    Keeps (Storage.execute e f) I :=
  statement h

/-- What follows may rely on what the results of the first part say. -/
theorem bind_of {f : α → Storage ε σ β} {Q : α → Prop} (hx : Keeps x I)
    (hq : ∀ s, I s → Ends x (fun a _ => Q a) s) (hf : ∀ a, Q a → Keeps (f a) I) :
    Keeps (x >>= f) I := by
  intro c hc
  have hx := hx c hc
  rw [bind_apply]
  split
  · next a c' heq =>
    rw [heq] at hx
    exact hf a (hq _ hc c.faults a c' heq) c' hx
  · next e c' heq =>
    rw [heq] at hx
    exact hx

theorem bind {f : α → Storage ε σ β} (hx : Keeps x I) (hf : ∀ a, Keeps (f a) I) :
    Keeps (x >>= f) I :=
  bind_of hx (fun _ _ _ _ _ _ => trivial) fun a _ => hf a

theorem attempt {e : String → ε} {f : σ → Except String σ} (h : ∀ s s', I s → f s = .ok s' → I s') :
    Keeps (Storage.attempt e f) I := by
  refine .bind (.statement fun s hs => ?_) fun _ _ hs => hs
  split
  · next s' hf => exact h s s' hs hf
  · exact hs

theorem guarded {c : Prop} [Decidable c] {x : Storage ε σ Unit} (hx : Keeps x I) :
    Keeps (Storage.guarded c x) I := by
  unfold Storage.guarded
  split
  · exact hx
  · exact pure

theorem forM {f : β → Storage ε σ Unit} {items : List β} (hf : ∀ item ∈ items, Keeps (f item) I) :
    Keeps (items.forM f) I := by
  induction items with
  | nil => exact pure
  | cons item items ih =>
    exact (hf item List.mem_cons_self).bind
      fun _ => ih fun item h => hf item (List.mem_cons_of_mem _ h)

theorem get : Keeps (Storage.get : Storage ε σ σ) I := fun _ h => h

theorem modify {f : σ → σ} (h : ∀ s, I s → I (f s)) : Keeps (Storage.modify f : Storage ε σ Unit) I :=
  fun _ hc => h _ hc

theorem transaction {e : String → ε} (h : Keeps x I) : Keeps (Storage.transaction e x) I := by
  intro c hc
  have hrun : Keeps (Storage.execute e id >>= fun _ => x >>= fun a =>
      Storage.execute e id >>= fun _ => Pure.pure a) I :=
    .bind (.execute fun _ h => h) fun _ => h.bind fun _ => .bind (.execute fun _ h => h) fun _ => pure
  have hend := hrun c hc
  unfold Storage.transaction
  split
  · next a c' heq =>
    rw [heq] at hend
    exact hend
  · exact hc

theorem foldlM {f : α → β → Storage ε σ α} {items : List β} (hf : ∀ a item, Keeps (f a item) I)
    (a : α) : Keeps (items.foldlM f a) I := by
  induction items generalizing a with
  | nil => exact pure
  | cons item items ih =>
    rw [List.foldlM_cons]
    exact (hf a item).bind ih

theorem or {J : σ → Prop} (hI : Keeps x I) (hJ : Keeps x J) : Keeps x (fun s => I s ∨ J s) :=
  fun c hc => hc.imp (hI c) (hJ c)

/-- A statement that the store rejects is the last one. -/
theorem stuck {e : String → ε} {f : σ → Except String σ} {g : Unit → Storage ε σ β}
    (h : ∀ s, I s → ∃ error, f s = .error error) : Keeps (Storage.attempt e f >>= g) I := by
  have hno : ∀ s s', I s → f s = .ok s' → False := by
    intro s s' hs hf
    obtain ⟨error, herror⟩ := h s hs
    simp [hf] at herror
  exact bind_of (Q := fun _ => False) (attempt fun s s' hs hf => (hno s s' hs hf).elim)
    (fun s hs => .attempt fun s' hf => hno s s' hs hf) fun _ hq => hq.elim

theorem of_eq (h : Keeps x I) {faults : List (Option String)} {result : Except ε α} {c : Conn σ}
    (hx : x ⟨s, faults⟩ = (result, c)) (hs : I s) : I c.store := by
  have hc := h ⟨s, faults⟩ hs
  rwa [hx] at hc

theorem ends (h : Keeps x I) (hs : I s) : Ends x (fun _ s => I s) s :=
  fun _ _ _ hx => h.of_eq hx hs

end Keeps

/-- The action leads from `s` to `s'`, and `P` holds of the store wherever it may be cut off. -/
def Passes (x : Storage ε σ α) (P : σ → Prop) (s : σ) (a : α) (s' : σ) : Prop :=
  ∃ stops, Trail x s stops a s' ∧ ∀ stop ∈ stops, P stop

namespace Passes

variable {x : Storage ε σ α} {P : σ → Prop}

theorem pure : Passes (pure a : Storage ε σ α) P s a s := ⟨[], .pure, by simp⟩

theorem query {e : String → ε} {f : σ → α} (h : P s) : Passes (Storage.query e f) P s (f s) s :=
  ⟨[s], .query, by simpa using h⟩

theorem execute {e : String → ε} {f : σ → σ} (h : P s) :
    Passes (Storage.execute e f) P s () (f s) :=
  ⟨[s], .execute, by simpa using h⟩

theorem attempt {e : String → ε} {f : σ → Except String σ} (h : P s) (hf : f s = .ok s') :
    Passes (Storage.attempt e f) P s () s' :=
  ⟨[s], .attempt hf, by simpa using h⟩

theorem bind {f : α → Storage ε σ β} (hx : Passes x P s a s₁) (hf : Passes (f a) P s₁ b s') :
    Passes (x >>= f) P s b s' := by
  obtain ⟨stops, hx, hstops⟩ := hx
  obtain ⟨stops', hf, hstops'⟩ := hf
  refine ⟨_, hx.bind hf, fun stop hstop => ?_⟩
  rcases List.mem_append.mp hstop with hstop | hstop
  · exact hstops stop hstop
  · exact hstops' stop hstop

theorem guarded {c : Prop} [Decidable c] {x : Storage ε σ Unit} (hc : c → Passes x P s () s')
    (hn : ¬ c → s' = s) : Passes (Storage.guarded c x) P s () s' := by
  unfold Storage.guarded
  split
  · next h => exact hc h
  · next h =>
    rw [hn h]
    exact pure

theorem forM_execute {e : String → ε} {f : β → σ → σ} {items : List β}
    (hP : ∀ earlier : List β, P (earlier.foldl (fun s b => f b s) s)) :
    Passes (items.forM fun b => Storage.execute e (f b)) P s ()
      (items.foldl (fun s b => f b s) s) := by
  induction items generalizing s with
  | nil => exact pure
  | cons b items ih => exact (execute (hP [])).bind (ih fun earlier => hP (b :: earlier))

/-- Statements that each keep an invariant. -/
theorem forM {e : String → ε} {fs : List (σ → Except String σ)} {I : σ → Prop}
    (hI : ∀ f ∈ fs, ∀ s, I s → ∃ s', f s = .ok s' ∧ I s') (hP : ∀ s, I s → P s) (h : I s) :
    ∃ s', Passes (fs.forM (Storage.attempt e)) P s () s' ∧ I s' ∧
      fs.foldlM (fun s f => f s) s = .ok s' := by
  induction fs generalizing s with
  | nil => exact ⟨s, pure, h, rfl⟩
  | cons f fs ih =>
    obtain ⟨s₁, hf, h₁⟩ := hI f List.mem_cons_self s h
    obtain ⟨s', hpasses, h', hfold⟩ := ih (fun f hmem => hI f (List.mem_cons_of_mem _ hmem)) h₁
    refine ⟨s', (attempt (hP s h) hf).bind hpasses, h', ?_⟩
    rw [List.foldlM_cons, hf]
    exact hfold

theorem result (h : Passes x P s a s') : x ⟨s, []⟩ = (.ok a, ⟨s', []⟩) := by
  obtain ⟨stops, htrail, -⟩ := h
  simpa using htrail.ends [] (by simp)

/-- What holds where the action is cut off. -/
theorem of_error (h : Passes x P s a s') {faults : List (Option String)} {e : ε} {c : Conn σ}
    (hx : x ⟨s, faults⟩ = (.error e, c)) : P c.store := by
  obtain ⟨stops, htrail, hstops⟩ := h
  exact htrail.stops_iff.mpr hstops faults e c hx

end Passes

end Storage
