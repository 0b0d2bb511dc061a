import Mathlib.Algebra.Order.Sub.Basic
import Mathlib.Algebra.Order.Monoid.Canonical.Defs
import ZimaScope.Lib.System

/-! # Polled counters

A counter lives in incarnations that start over from nothing, and an observer
sees it only through polls that may fail. The observer emits the difference to
the total it holds, or the whole total when that has gone down. What it emits
never exceeds what the incarnations counted, and is what it last observed as
long as there is only one incarnation.
-/

namespace PolledCounter

variable {α τ : Type*}

/-- A total with the time of its last change. -/
structure Reading (α τ : Type*) where
  total : α
  stamp : τ

/-- A reading, and the sum over the incarnations before the one it is of. -/
structure Sighting (α τ : Type*) where
  base : α
  reading : Reading α τ

/-- The counter and its observer. `due` says of the poll under way whether it
still has to visit the counter, which was there when it began. -/
structure History (α τ : Type*) where
  emitted : α
  held : Option (Reading α τ)
  sightings : List (Sighting α τ)
  live : Option (Reading α τ)
  retired : α
  evicted : Bool
  due : Option Bool
  observed : α

/-- Totals only grow, and growing they change their stamp. -/
structure Reading.Grows [LE α] [Preorder τ] (a b : Reading α τ) : Prop where
  total_le : a.total ≤ b.total
  stamp_le : a.stamp ≤ b.stamp
  stamp_lt : a.total ≠ b.total → a.stamp < b.stamp

section Definitions

variable [AddCommMonoid α] [PartialOrder α] [Sub α] [PartialOrder τ]

/-- One observation: the amount emitted and the reading held afterwards. -/
inductive Observe : Option (Reading α τ) → Reading α τ → α → Reading α τ → Prop
  | first {r} : Observe none r r.total r
  | advance {p r} (h : p.total ≤ r.total) : Observe (some p) r (r.total - p.total) r
  | restart {p r} (h : ¬ p.total ≤ r.total) : Observe (some p) r r.total r
  | quiet {p r} (h : p.total ≤ r.total) (hs : ¬ p.stamp < r.stamp) : Observe (some p) r 0 p

/-- The observations of one poll. -/
inductive ObserveAll :
    Option (Reading α τ) → List (Reading α τ) → α → Option (Reading α τ) → Prop
  | nil {p} : ObserveAll p [] 0 p
  | cons {p r e p' rs es q} (h : Observe p r e p') (hs : ObserveAll (some p') rs es q) :
      ObserveAll p (r :: rs) (e + es) q

def History.start : History α τ where
  emitted := 0
  held := none
  sightings := []
  live := none
  retired := 0
  evicted := false
  due := none
  observed := 0

/-- What all incarnations have counted. -/
def History.recorded (h : History α τ) : α := h.retired + (h.live.map Reading.total).getD 0

inductive Step : History α τ → History α τ → Prop
  | create {h r} (hl : h.live = none) : Step h { h with live := some r }
  | grow {h r r'} (hl : h.live = some r) (hg : r.Grows r') : Step h { h with live := some r' }
  | evict {h r} (hl : h.live = some r) : Step h { h with
      live := none, retired := h.retired + r.total, evicted := true
      due := h.due.map fun _ => false }
  | begin {h} : Step h { h with sightings := [], due := some h.live.isSome }
  | visit {h r} (hl : h.live = some r) : Step h { h with
      sightings := h.sightings ++ [⟨h.retired, r⟩], due := some false }
  /-- A poll that visited the counter or had no need to. What has not been
  visited may be forgotten. -/
  | succeed {h e held held'} (hd : h.due = some false)
      (ho : ObserveAll h.held (h.sightings.map Sighting.reading) e held)
      (hk : held' = held ∨ (h.sightings = [] ∧ held' = none)) : Step h { h with
      emitted := h.emitted + e, held := held', sightings := [], due := none
      observed := (h.sightings.getLast?.map fun s => s.reading.total).getD h.observed }
  | fail {h} : Step h { h with due := none }

def system : System (History α τ) := ⟨fun h => h = .start, Step⟩

end Definitions

/-! ## Never more than was counted -/

/-- A count within an incarnation, over the sum of those before it. -/
structure Mark (α : Type*) where
  base : α
  count : α

section Marks

variable [AddCommMonoid α] [PartialOrder α]

def Mark.reach (m : Mark α) : α := m.base + m.count

/-- A later mark is of the same incarnation, or all that was counted at the
earlier one is below it. -/
def Precedes (a b : Mark α) : Prop :=
  (a.base = b.base ∧ a.count ≤ b.count) ∨ a.reach ≤ b.base

variable {a b c : Mark α} {e : α}

theorem Precedes.refl (a : Mark α) : Precedes a a := Or.inl ⟨rfl, le_rfl⟩

variable [IsOrderedAddMonoid α] [CanonicallyOrderedAdd α]

theorem Precedes.reach_le (h : Precedes a b) : a.reach ≤ b.reach := by
  rcases h with ⟨hb, hc⟩ | h
  · rw [Mark.reach, Mark.reach, hb]
    exact add_le_add_right hc _
  · exact h.trans le_self_add

omit [IsOrderedAddMonoid α] in
theorem Precedes.base_le (h : Precedes a b) : a.base ≤ b.base := by
  rcases h with ⟨hb, _⟩ | h
  · exact hb.le
  · exact le_self_add.trans h

theorem Precedes.trans (hab : Precedes a b) (hbc : Precedes b c) : Precedes a c := by
  rcases hbc with ⟨hb, hc⟩ | hbc
  · rcases hab with ⟨hb', hc'⟩ | hab
    · exact Or.inl ⟨hb'.trans hb, hc'.trans hc⟩
    · exact Or.inr (hab.trans hb.le)
  · exact Or.inr (hab.reach_le.trans hbc)

omit [CanonicallyOrderedAdd α] in
/-- A count that has gone down belongs to a later incarnation. -/
theorem Precedes.restart (h : Precedes a b) (hn : ¬ a.count ≤ b.count) (he : e ≤ a.reach) :
    e + b.count ≤ b.reach := by
  rcases h with ⟨_, hc⟩ | h
  · exact absurd hc hn
  · exact add_le_add_left (he.trans h) _

/-- Otherwise the difference has been counted since. -/
theorem Precedes.advance [Sub α] [OrderedSub α] (h : Precedes a b) (hc : a.count ≤ b.count)
    (he : e ≤ a.reach) : e + (b.count - a.count) ≤ b.reach :=
  calc e + (b.count - a.count) ≤ a.base + a.count + (b.count - a.count) := add_le_add_left he _
    _ = a.base + b.count := by rw [add_assoc, add_tsub_cancel_of_le hc]
    _ ≤ b.base + b.count := add_le_add_left h.base_le _

end Marks

section Chains

variable {β : Type*} {R : β → β → Prop} {l : List β} {b c : β}

/-- The last element of a chain may be replaced by one that comes after it. -/
theorem pairwise_replace_last (htrans : ∀ {a b c}, R a b → R b c → R a c)
    (h : (l ++ [b]).Pairwise R) (hb : R b c) : (l ++ [c]).Pairwise R := by
  obtain ⟨hl, _, hlast⟩ := List.pairwise_append.mp h
  refine List.pairwise_append.mpr ⟨hl, List.pairwise_singleton _ _, ?_⟩
  intro a ha c' hc'
  obtain rfl := List.mem_singleton.mp hc'
  exact htrans (hlast a ha b (List.mem_singleton_self b)) hb

/-- The last element of a chain may be repeated. -/
theorem pairwise_repeat_last (hrefl : R b b) (h : (l ++ [b]).Pairwise R) :
    (l ++ [b] ++ [b]).Pairwise R := by
  obtain ⟨_, _, hlast⟩ := List.pairwise_append.mp h
  refine List.pairwise_append.mpr ⟨h, List.pairwise_singleton _ _, ?_⟩
  intro a ha b' hb'
  obtain rfl := List.mem_singleton.mp hb'
  rcases List.mem_append.mp ha with ha | ha
  · exact hlast a ha _ (List.mem_singleton_self _)
  · rwa [List.mem_singleton.mp ha]

end Chains

def totalOf [Zero α] (r : Option (Reading α τ)) : α := (r.map Reading.total).getD 0

@[simp] theorem totalOf_none [Zero α] : totalOf (none : Option (Reading α τ)) = 0 := rfl

@[simp] theorem totalOf_some [Zero α] (r : Reading α τ) : totalOf (some r) = r.total := rfl

def Sighting.mark (s : Sighting α τ) : Mark α := ⟨s.base, s.reading.total⟩

/-- Where the counter stands. -/
def History.current [Zero α] (h : History α τ) : Mark α := ⟨h.retired, totalOf h.live⟩

section Bound

variable [AddCommMonoid α] [PartialOrder α] [Sub α] [PartialOrder τ]

/-- What has been emitted was counted up to the reading held, which comes before
the sightings of the poll under way and where the counter stands now; when that
poll has nothing to visit, the incarnation of the reading is over. -/
def Bounded (h : History α τ) : Prop :=
  ∃ base, h.emitted ≤ base + totalOf h.held ∧
    (⟨base, totalOf h.held⟩ :: h.sightings.map Sighting.mark ++ [h.current]).Pairwise Precedes ∧
    (h.due = some false → h.sightings = [] → base + totalOf h.held ≤ h.retired)

variable [IsOrderedAddMonoid α] [CanonicallyOrderedAdd α] [OrderedSub α]

theorem ObserveAll.bounded {p q : Option (Reading α τ)} {e e₀ base : α} {c : Mark α}
    {ss : List (Sighting α τ)} (ho : ObserveAll p (ss.map Sighting.reading) e q)
    (he : e₀ ≤ base + totalOf p)
    (hp : (⟨base, totalOf p⟩ :: ss.map Sighting.mark ++ [c]).Pairwise Precedes) :
    ∃ base', e₀ + e ≤ base' + totalOf q ∧ Precedes ⟨base', totalOf q⟩ c := by
  induction ss generalizing p e e₀ base with
  | nil =>
    cases ho
    exact ⟨base, by rwa [add_zero], List.rel_of_pairwise_cons hp (List.mem_singleton_self c)⟩
  | cons s ss ih =>
    cases ho with
    | @cons _ _ e₁ p' _ es _ h hs =>
      have hnext : Precedes ⟨base, totalOf p⟩ s.mark :=
        List.rel_of_pairwise_cons hp List.mem_cons_self
      have htail : (s.mark :: ss.map Sighting.mark ++ [c]).Pairwise Precedes :=
        (List.pairwise_cons.mp hp).2
      have hkeep : (⟨base, totalOf p⟩ :: ss.map Sighting.mark ++ [c]).Pairwise Precedes :=
        hp.sublist ((List.sublist_cons_self _ _).cons_cons _)
      have hstep : ∀ e₁, e₀ + e₁ ≤ s.mark.reach →
          ObserveAll (some s.reading) (ss.map Sighting.reading) es q →
          ∃ base', e₀ + (e₁ + es) ≤ base' + totalOf q ∧ Precedes ⟨base', totalOf q⟩ c := by
        intro e₁ he₁ hs
        rw [← add_assoc]
        exact ih hs he₁ htail
      cases h with
      | first =>
        refine hstep _ ?_ hs
        have hadd := hnext.advance zero_le he
        rwa [totalOf_none, tsub_zero] at hadd
      | advance h => exact hstep _ (hnext.advance h he) hs
      | restart h => exact hstep _ (hnext.restart h he) hs
      | quiet _ _ =>
        rw [zero_add]
        exact ih hs he hkeep

theorem Step.bounded {h h' : History α τ} (hs : Step h h') (hb : Bounded h) : Bounded h' := by
  obtain ⟨base, he, hp, hm⟩ := hb
  have hlast : Precedes ⟨base, totalOf h.held⟩ h.current :=
    List.rel_of_pairwise_cons hp (List.mem_append_right _ (List.mem_singleton_self _))
  cases hs with
  | @create r hl =>
    refine ⟨base, he, pairwise_replace_last Precedes.trans hp (Or.inl ⟨rfl, ?_⟩), hm⟩
    rw [History.current, hl]
    exact zero_le
  | @grow r r' hl hg =>
    refine ⟨base, he, pairwise_replace_last Precedes.trans hp (Or.inl ⟨rfl, ?_⟩), hm⟩
    rw [History.current, hl]
    exact hg.total_le
  | @evict r hl =>
    have hcurrent : h.current = ⟨h.retired, r.total⟩ := by rw [History.current, hl, totalOf_some]
    have hend : Precedes h.current ⟨h.retired + r.total, 0⟩ := by
      rw [hcurrent]
      exact Or.inr le_rfl
    refine ⟨base, he, pairwise_replace_last Precedes.trans hp hend, fun _ _ => ?_⟩
    rw [hcurrent] at hlast
    exact hlast.reach_le
  | begin =>
    refine ⟨base, he, List.pairwise_pair.mpr hlast, fun hd _ => ?_⟩
    have hnone : h.live = none := by simpa using hd
    have hreach := hlast.reach_le
    rwa [History.current, hnone, totalOf_none, Mark.reach, Mark.reach, add_zero] at hreach
  | @visit r hl =>
    refine ⟨base, he, ?_, fun _ hnil => by simp at hnil⟩
    have hmark : Sighting.mark ⟨h.retired, r⟩ = h.current := by
      rw [History.current, hl]
      rfl
    rw [List.map_append, List.map_singleton, hmark]
    exact pairwise_repeat_last (Precedes.refl _) hp
  | @succeed e held held' hd ho hk =>
    rcases hk with rfl | ⟨hnil, rfl⟩
    · obtain ⟨base', he', hlast'⟩ := ho.bounded he hp
      exact ⟨base', he', List.pairwise_pair.mpr hlast', fun hd => by simp at hd⟩
    · -- the reading is forgotten, and its incarnation is over
      rw [hnil] at ho
      cases ho
      refine ⟨base + totalOf h.held, ?_, List.pairwise_pair.mpr (Or.inr ?_),
        fun hd => by simp at hd⟩
      · simpa using he
      · rw [Mark.reach, totalOf_none, add_zero]
        exact hm hd hnil
  | fail => exact ⟨base, he, hp, fun hd => by simp at hd⟩

/-- The observer never emits more than all incarnations have counted. -/
theorem emitted_le_recorded {h : History α τ} (hr : system.Reachable h) :
    h.emitted ≤ h.recorded := by
  have hstart : Bounded (History.start : History α τ) :=
    ⟨0, le_self_add, List.pairwise_pair.mpr (Precedes.refl _), fun hd => by simp [History.start] at hd⟩
  have hb : Bounded h := hr.invariant (fun s hs => by rwa [hs]) fun s s' hb hs => hs.bounded hb
  obtain ⟨base, he, hp, _⟩ := hb
  have hlast : Precedes ⟨base, totalOf h.held⟩ h.current :=
    List.rel_of_pairwise_cons hp (List.mem_append_right _ (List.mem_singleton_self _))
  exact he.trans hlast.reach_le

end Bound

/-! ## Exactly what was observed -/

section Grows

variable [PartialOrder α] [PartialOrder τ]

theorem Reading.Grows.refl (a : Reading α τ) : a.Grows a :=
  ⟨le_rfl, le_rfl, fun h => absurd rfl h⟩

theorem Reading.Grows.trans {a b c : Reading α τ} (hab : a.Grows b) (hbc : b.Grows c) :
    a.Grows c := by
  refine ⟨hab.total_le.trans hbc.total_le, hab.stamp_le.trans hbc.stamp_le, fun hne => ?_⟩
  by_cases hb : a.total = b.total
  · exact hab.stamp_le.trans_lt (hbc.stamp_lt (by rwa [← hb]))
  · exact (hab.stamp_lt hb).trans_le hbc.stamp_le

/-- A reading whose stamp has not changed has not changed. -/
theorem Reading.Grows.eq_of_not_lt {a b : Reading α τ} (h : a.Grows b)
    (hs : ¬ a.stamp < b.stamp) : a = b := by
  have htotal : a.total = b.total := by
    by_contra hne
    exact hs (h.stamp_lt hne)
  have hstamp : a.stamp = b.stamp := eq_of_le_of_not_lt h.stamp_le hs
  cases a
  cases b
  simp_all

end Grows

section Exact

variable [AddCommMonoid α] [PartialOrder α] [Sub α] [PartialOrder τ]

/-- As long as its one incarnation lives, the reading held is what was emitted
and observed, and all readings grow. -/
structure Exact (h : History α τ) : Prop where
  emitted_eq : h.emitted = totalOf h.held
  observed_eq : h.observed = totalOf h.held
  grows : (h.held.toList ++ h.sightings.map Sighting.reading ++ h.live.toList).Pairwise
    Reading.Grows
  absent : h.live = none → h.held = none ∧ h.sightings = []
  missed : h.due = some false → h.sightings = [] → h.held = none

theorem ObserveAll.eq_of_nil {p q : Option (Reading α τ)} {e : α} (ho : ObserveAll p [] e q) :
    e = 0 ∧ q = p := by
  generalize hrs : ([] : List (Reading α τ)) = rs at ho
  cases ho with
  | nil => exact ⟨rfl, rfl⟩
  | cons => simp at hrs

variable [IsOrderedAddMonoid α] [CanonicallyOrderedAdd α] [OrderedSub α]

theorem ObserveAll.exact {p q : Option (Reading α τ)} {e : α} {rs : List (Reading α τ)}
    (ho : ObserveAll p rs e q) (hg : (p.toList ++ rs).Pairwise Reading.Grows) :
    totalOf p + e = totalOf q ∧ q = rs.getLast?.or p := by
  induction ho with
  | nil => exact ⟨add_zero _, rfl⟩
  | @cons p r e p' rs es q h hs ih =>
    have hrest : (r :: rs).Pairwise Reading.Grows := hg.sublist (List.sublist_append_right _ _)
    have hprev : ∀ x, p = some x → x.Grows r := by
      rintro x rfl
      exact List.rel_of_pairwise_cons hg List.mem_cons_self
    have hp' : p' = r ∧ totalOf p + e = r.total := by
      cases h with
      | first => exact ⟨rfl, zero_add _⟩
      | advance h => exact ⟨rfl, add_tsub_cancel_of_le h⟩
      | restart h => exact absurd (hprev _ rfl).total_le h
      | quiet h hstamp =>
        have heq := (hprev _ rfl).eq_of_not_lt hstamp
        exact ⟨heq, by rw [add_zero, heq, totalOf_some]⟩
    obtain ⟨rfl, hsum⟩ := hp'
    obtain ⟨htotal, hlast⟩ := ih hrest
    refine ⟨?_, ?_⟩
    · rw [← add_assoc, hsum]
      exact htotal
    · rw [hlast]
      cases hrs : rs.getLast? <;> simp [List.getLast?_cons, hrs]

/-- While totals do not go down, what is emitted is the difference between the
totals held. -/
theorem ObserveAll.total {p q : Option (Reading α τ)} {e : α} {rs : List (Reading α τ)}
    (ho : ObserveAll p rs e q) (hm : (totalOf p :: rs.map Reading.total).Pairwise (· ≤ ·)) :
    totalOf p + e = totalOf q ∧ totalOf q ∈ totalOf p :: rs.map Reading.total := by
  induction ho with
  | nil => exact ⟨add_zero _, List.mem_cons_self⟩
  | @cons p r e p' rs es q h hs ih =>
    have hle : totalOf p ≤ r.total := List.rel_of_pairwise_cons hm List.mem_cons_self
    have hskip : (totalOf p :: rs.map Reading.total).Sublist (totalOf p :: (r :: rs).map Reading.total) :=
      (List.sublist_cons_self _ _).cons_cons _
    have hp' : totalOf p + e = p'.total ∧ (p' = r ∨ some p' = p) := by
      cases h with
      | first => exact ⟨zero_add _, Or.inl rfl⟩
      | advance h => exact ⟨add_tsub_cancel_of_le h, Or.inl rfl⟩
      | restart h => exact absurd hle h
      | quiet h hstamp => exact ⟨add_zero _, Or.inr rfl⟩
    obtain ⟨hsum, hp'⟩ := hp'
    have hsub : (totalOf (some p') :: rs.map Reading.total).Sublist
        (totalOf p :: (r :: rs).map Reading.total) := by
      rcases hp' with rfl | rfl
      · exact List.sublist_cons_self _ _
      · exact hskip
    obtain ⟨htotal, hq⟩ := ih (hm.sublist hsub)
    rw [← add_assoc, hsum]
    exact ⟨htotal, hsub.subset hq⟩

theorem Step.exact {h h' : History α τ} (hs : Step h h') (he : h.evicted = false → Exact h)
    (hn : h'.evicted = false) : Exact h' := by
  cases hs with
  | @create r hl =>
    obtain ⟨hemit, hobs, hgrows, habsent, hmissed⟩ := he hn
    obtain ⟨hheld, hsight⟩ := habsent hl
    refine ⟨hemit, hobs, ?_, fun hl' => by simp at hl', hmissed⟩
    simp [hheld, hsight]
  | @grow r r' hl hg =>
    obtain ⟨hemit, hobs, hgrows, habsent, hmissed⟩ := he hn
    refine ⟨hemit, hobs, ?_, fun hl' => by simp at hl', hmissed⟩
    rw [hl] at hgrows
    exact pairwise_replace_last Reading.Grows.trans hgrows hg
  | evict hl => simp at hn
  | begin =>
    obtain ⟨hemit, hobs, hgrows, habsent, hmissed⟩ := he hn
    refine ⟨hemit, hobs, ?_, fun hl => ⟨(habsent hl).1, rfl⟩, fun hd _ => ?_⟩
    · rw [List.map_nil, List.append_nil]
      exact hgrows.sublist ((List.sublist_append_left _ _).append (List.Sublist.refl _))
    · exact (habsent (by simpa using hd)).1
  | @visit r hl =>
    obtain ⟨hemit, hobs, hgrows, habsent, hmissed⟩ := he hn
    refine ⟨hemit, hobs, ?_, fun hl' => by simp [hl] at hl', fun _ hnil => by simp at hnil⟩
    rw [hl] at hgrows ⊢
    rw [List.map_append, ← List.append_assoc]
    exact pairwise_repeat_last (Reading.Grows.refl r) hgrows
  | @succeed e held held' hd ho hk =>
    obtain ⟨hemit, hobs, hgrows, habsent, hmissed⟩ := he hn
    obtain ⟨htotal, hlast⟩ := ho.exact (hgrows.sublist (List.sublist_append_left _ _))
    have hheld : held' = held := by
      rcases hk with hk | ⟨hnil, hk⟩
      · exact hk
      · -- nothing was visited, so nothing was held either
        have hnone := hmissed hd hnil
        rw [hnil] at ho
        cases ho
        rw [hk, hnone]
    subst hheld
    refine ⟨?_, ?_, ?_, fun hl => ?_, fun hd => by simp at hd⟩
    · rw [← htotal, ← hemit]
    · rw [hlast, List.getLast?_map, hobs]
      cases h.sightings.getLast? <;> rfl
    · obtain ⟨_, hlive, hcross⟩ := List.pairwise_append.mp hgrows
      refine List.pairwise_append.mpr ⟨?_, hlive, fun x hx y hy => ?_⟩
      · cases held' <;> simp
      · have hx : held' = some x := by simpa using hx
        refine hcross x ?_ y hy
        rw [hlast, Option.or_eq_some_iff] at hx
        rcases hx with hx | ⟨_, hx⟩
        · exact List.mem_append_right _ (List.mem_of_getLast? hx)
        · exact List.mem_append_left _ (by simp [hx])
    · obtain ⟨hheld, hsight⟩ := habsent hl
      rw [hsight] at hlast
      exact ⟨by simpa [hheld] using hlast, rfl⟩
  | fail =>
    obtain ⟨hemit, hobs, hgrows, habsent, _⟩ := he hn
    exact ⟨hemit, hobs, hgrows, habsent, fun hd => by simp at hd⟩

/-- As long as the counter is never evicted, the observer has emitted exactly
what it last observed. -/
theorem emitted_eq_observed {h : History α τ} (hr : system.Reachable h)
    (hn : h.evicted = false) : h.emitted = h.observed := by
  have hstart : Exact (History.start : History α τ) :=
    ⟨rfl, rfl, List.Pairwise.nil, fun _ => ⟨rfl, rfl⟩, fun _ _ => rfl⟩
  have he : h.evicted = false → Exact h :=
    hr.invariant (P := fun h => h.evicted = false → Exact h) (fun s hs _ => by rwa [hs])
      fun s s' he hs => hs.exact he
  rw [(he hn).emitted_eq, (he hn).observed_eq]

end Exact

end PolledCounter
