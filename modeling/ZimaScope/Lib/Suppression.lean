import Mathlib.Data.List.Infix
import Mathlib.Order.Lattice
import Mathlib.Logic.Function.Basic

/-! # Suppression until expiry

An offer is taken unless one with its key has been taken that has not yet expired. Of
what was taken last for each key a table keeps the expiry, and the table may be purged
of what has expired. Time does not go backwards.
-/

namespace Suppression

variable {K O T : Type*}

inductive Event (O T : Type*)
  | offer (now : T) (o : O)
  | purge (now : T)

def Event.time : Event O T → T
  | offer now _ => now
  | purge now => now

def Event.isOffer : Event O T → Bool
  | offer _ _ => true
  | purge _ => false

/-- The expiry of what was taken last for a key; everything that was taken, and when. -/
structure State (K O T : Type*) where
  table : K → Option T := fun _ => none
  taken : List (T × O) := []

theorem first_le [Preorder T] {event : Event O T} {events : List (Event O T)}
    (htimes : ((event :: events).map Event.time).Pairwise (· ≤ ·)) :
    ∀ event' ∈ event :: events, event.time ≤ event'.time := by
  intro event' hevent'
  rcases List.mem_cons.mp hevent' with rfl | hevent'
  · exact le_rfl
  · exact (List.pairwise_cons.mp htimes).1 _ (List.mem_map_of_mem hevent')

section Step

variable [LinearOrder T]

def purge (now : T) (s : State K O T) : State K O T :=
  { s with table := fun k => (s.table k).filter fun e => now < e }

variable [DecidableEq K] (key : O → K) (expiry : O → T)

def offer (now : T) (s : State K O T) (o : O) : State K O T :=
  if (s.table (key o)).any fun e => now < e then s
  else ⟨Function.update s.table (key o) (some (expiry o)), s.taken ++ [(now, o)]⟩

def next (s : State K O T) : Event O T → State K O T
  | .offer now o => offer key expiry now s o
  | .purge now => purge now s

end Step

section Offer

variable [LinearOrder T] {key : O → K} {expiry : O → T} {now : T} {s : State K O T} {o : O}

/-- Something with the key has been taken that has not expired. -/
theorem any_iff {k : K} : ((s.table k).any fun e => now < e) = true ↔
    ∃ e, s.table k = some e ∧ now < e := by
  cases s.table k <;> simp

variable [DecidableEq K]

/-- An offer is refused while an earlier one has not expired, and taken otherwise. -/
theorem offer_cases (key : O → K) (expiry : O → T) (now : T) (s : State K O T) (o : O) :
    (∃ e, s.table (key o) = some e ∧ now < e ∧ offer key expiry now s o = s) ∨
      (∀ e, s.table (key o) = some e → e ≤ now) ∧ offer key expiry now s o =
        ⟨Function.update s.table (key o) (some (expiry o)), s.taken ++ [(now, o)]⟩ := by
  unfold offer
  split
  · next h =>
    obtain ⟨e, he, hlt⟩ := any_iff.mp h
    exact Or.inl ⟨e, he, hlt, rfl⟩
  · next h =>
    refine Or.inr ⟨fun e he => ?_, rfl⟩
    by_contra hlt
    exact h (any_iff.mpr ⟨e, he, not_le.mp hlt⟩)

theorem taken_offer : s.taken <+: (offer key expiry now s o).taken := by
  obtain ⟨_, -, -, h⟩ | ⟨-, h⟩ := offer_cases key expiry now s o
  · rw [h]
  · rw [h]
    exact List.prefix_append _ _

theorem taken_next (s : State K O T) (event : Event O T) :
    s.taken <+: (next key expiry s event).taken := by
  cases event with
  | offer now o => exact taken_offer
  | purge now => exact List.prefix_rfl

/-- What has been taken stays taken. -/
theorem taken_run (s : State K O T) (events : List (Event O T)) :
    s.taken <+: (events.foldl (next key expiry) s).taken := by
  induction events generalizing s with
  | nil => exact List.prefix_rfl
  | cons event events ih => exact (taken_next s event).trans (ih _)

end Offer

/-! ## The table and what was taken -/

/-- The table knows what was taken and has not expired, and nothing was taken before what had been
taken with its key expired. -/
structure Sound [LE T] (key : O → K) (expiry : O → T) (now : T) (s : State K O T) : Prop where
  recorded : ∀ k e, s.table k = some e → ∃ a ∈ s.taken, key a.2 = k ∧ expiry a.2 = e
  known : ∀ a ∈ s.taken, expiry a.2 ≤ now ∨ s.table (key a.2) = some (expiry a.2)
  spaced : s.taken.Pairwise fun a b => key a.2 = key b.2 → expiry a.2 ≤ b.1

section Sound

variable [LinearOrder T] {key : O → K} {expiry : O → T} {now later : T}
  {s : State K O T} {o : O}

theorem sound_empty : Sound key expiry now {} := by
  constructor
  · nofun
  · nofun
  · exact .nil

theorem Sound.mono (h : Sound key expiry now s) (hle : now ≤ later) : Sound key expiry later s :=
  { h with known := fun a ha => (h.known a ha).imp_left fun hexpired => hexpired.trans hle }

theorem Sound.purge (h : Sound key expiry now s) : Sound key expiry now (purge now s) := by
  constructor
  · intro k e he
    exact h.recorded k e (Option.filter_eq_some_iff.mp he).1
  · intro a ha
    rcases h.known a ha with hle | hknown
    · exact Or.inl hle
    · rcases le_or_gt (expiry a.2) now with hle | hlt
      · exact Or.inl hle
      · exact Or.inr (Option.filter_eq_some_iff.mpr ⟨hknown, decide_eq_true hlt⟩)
  · exact h.spaced

variable [DecidableEq K]

theorem Sound.offer (h : Sound key expiry now s) : Sound key expiry now (offer key expiry now s o) := by
  obtain ⟨_, -, -, hsame⟩ | ⟨hexpired, htaken⟩ := offer_cases key expiry now s o
  · rw [hsame]
    exact h
  · -- whatever was taken with the key has expired, for the table would know it
    have hdone : ∀ a ∈ s.taken, key a.2 = key o → expiry a.2 ≤ now := by
      intro a ha hkey
      rcases h.known a ha with hle | hknown
      · exact hle
      · exact hexpired _ (hkey ▸ hknown)
    rw [htaken]
    constructor
    · intro k e he
      by_cases hk : k = key o
      · subst hk
        simp only [Function.update_self] at he
        exact ⟨(now, o), by simp, rfl, Option.some.inj he⟩
      · simp only [Function.update_of_ne hk] at he
        obtain ⟨a, ha, hkey⟩ := h.recorded k e he
        exact ⟨a, List.mem_append_left _ ha, hkey⟩
    · intro a ha
      rcases List.mem_append.mp ha with ha | ha
      · by_cases hkey : key a.2 = key o
        · exact Or.inl (hdone a ha hkey)
        · simp only [Function.update_of_ne hkey]
          exact h.known a ha
      · obtain rfl := List.mem_singleton.mp ha
        exact Or.inr (Function.update_self ..)
    · rw [List.pairwise_append]
      refine ⟨h.spaced, List.pairwise_singleton _ _, ?_⟩
      intro a ha b hb hkey
      obtain rfl := List.mem_singleton.mp hb
      exact hdone a ha hkey

theorem Sound.next {event : Event O T} (h : Sound key expiry now s) (hle : now ≤ event.time) :
    Sound key expiry event.time (next key expiry s event) := by
  cases event with
  | offer now' o => exact (h.mono hle).offer
  | purge now' => exact (h.mono hle).purge

/-- Every run keeps the table sound. -/
theorem Sound.run {events : List (Event O T)} (h : Sound key expiry now s)
    (htimes : (events.map Event.time).Pairwise (· ≤ ·)) (hnow : ∀ event ∈ events, now ≤ event.time)
    (hlater : ∀ event ∈ events, event.time ≤ later) (hle : now ≤ later) :
    Sound key expiry later (events.foldl (Suppression.next key expiry) s) := by
  induction events generalizing now s with
  | nil => exact h.mono hle
  | cons event events ih =>
    obtain ⟨hfirst, htail⟩ := List.pairwise_cons.mp htimes
    rw [List.foldl_cons]
    apply ih (h.next (hnow event List.mem_cons_self)) htail
    · intro event' hevent'
      exact hfirst _ (List.mem_map_of_mem hevent')
    · intro event' hevent'
      exact hlater event' (List.mem_cons_of_mem _ hevent')
    · exact hlater event List.mem_cons_self

/-- After an offer something with its key is known that has not expired, unless the offer had. -/
theorem Sound.covered (h : Sound key expiry now s) (o : O) :
    (∃ a ∈ (Suppression.offer key expiry now s o).taken, key a.2 = key o ∧ now < expiry a.2) ∨
      expiry o ≤ now := by
  obtain ⟨e, he, hlt, hsame⟩ | ⟨-, htaken⟩ := offer_cases key expiry now s o
  · obtain ⟨a, ha, hkey, rfl⟩ := h.recorded _ e he
    exact Or.inl ⟨a, by rwa [hsame], hkey, hlt⟩
  · rcases le_or_gt (expiry o) now with hle | hlt
    · exact Or.inr hle
    · exact Or.inl ⟨(now, o), by rw [htaken]; simp, rfl, hlt⟩

theorem sound_run {events : List (Event O T)} (htimes : (events.map Event.time).Pairwise (· ≤ ·))
    (hlater : ∀ event ∈ events, event.time ≤ later) :
    Sound key expiry later (events.foldl (Suppression.next key expiry) {}) := by
  cases events with
  | nil => exact sound_empty
  | cons event events =>
    exact sound_empty.run htimes (first_le htimes) hlater (hlater event List.mem_cons_self)

/-- Nothing is taken before what was taken with its key has expired. -/
theorem spaced_run {events : List (Event O T)} (htimes : (events.map Event.time).Pairwise (· ≤ ·)) :
    (events.foldl (Suppression.next key expiry) {}).taken.Pairwise fun a b =>
      key a.2 = key b.2 → expiry a.2 ≤ b.1 := by
  rcases events.eq_nil_or_concat' with rfl | ⟨before, last, rfl⟩
  · exact .nil
  · have hlater : ∀ event ∈ before ++ [last], event.time ≤ last.time := by
      intro event hevent
      rw [List.map_append, List.pairwise_append] at htimes
      rcases List.mem_append.mp hevent with hevent | hevent
      · exact htimes.2.2 _ (List.mem_map_of_mem hevent) _ (by simp)
      · rw [List.mem_singleton.mp hevent]
    exact (sound_run htimes hlater).spaced

/-- Whatever is offered, something with its key is known afterwards that has not expired, unless
the offer had. -/
theorem covered_run {before after : List (Event O T)} {o : O}
    (htimes : ((before ++ .offer now o :: after).map Event.time).Pairwise (· ≤ ·)) :
    (∃ a ∈ ((before ++ .offer now o :: after).foldl (Suppression.next key expiry) {}).taken,
      key a.2 = key o ∧ now < expiry a.2) ∨ expiry o ≤ now := by
  rw [List.map_append, List.pairwise_append] at htimes
  have hlater : ∀ event ∈ before, event.time ≤ now := fun event hevent =>
    htimes.2.2 _ (List.mem_map_of_mem hevent) now (by simp [Event.time])
  rw [List.foldl_append, List.foldl_cons]
  have hsound : Sound key expiry now (before.foldl (Suppression.next key expiry) {}) :=
    sound_run htimes.1 hlater
  rcases hsound.covered o with ⟨a, ha, hknown⟩ | hexpired
  · exact Or.inl ⟨a, (taken_run _ after).subset ha, hknown⟩
  · exact Or.inr hexpired

end Sound

/-! ## Purging -/

/-- The same was taken, and the tables agree on what has not expired. -/
structure Agree [LT T] (now : T) (s s' : State K O T) : Prop where
  taken : s.taken = s'.taken
  table : ∀ k e, now < e → (s.table k = some e ↔ s'.table k = some e)

section Agree

variable [LinearOrder T] {key : O → K} {expiry : O → T} {now later : T}
  {s s' : State K O T} {o : O}

theorem agree_refl (now : T) (s : State K O T) : Agree now s s := ⟨rfl, fun _ _ _ => Iff.rfl⟩

theorem Agree.mono (h : Agree now s s') (hle : now ≤ later) : Agree later s s' :=
  { h with table := fun k e hlt => h.table k e (hle.trans_lt hlt) }

theorem Agree.purge (h : Agree now s s') : Agree now (purge now s) s' := by
  refine ⟨h.taken, fun k e hlt => ?_⟩
  rw [← h.table k e hlt]
  exact Option.filter_eq_some_iff.trans (and_iff_left (decide_eq_true hlt))

variable [DecidableEq K]

theorem Agree.offer (h : Agree now s s') :
    Agree now (offer key expiry now s o) (offer key expiry now s' o) := by
  have hany : ((s.table (key o)).any fun e => now < e) = (s'.table (key o)).any fun e => now < e := by
    rw [Bool.eq_iff_iff, any_iff, any_iff]
    constructor
    · rintro ⟨e, he, hlt⟩
      exact ⟨e, (h.table _ e hlt).mp he, hlt⟩
    · rintro ⟨e, he, hlt⟩
      exact ⟨e, (h.table _ e hlt).mpr he, hlt⟩
  unfold Suppression.offer
  rw [hany]
  split
  · exact h
  · refine ⟨congrArg (· ++ [(now, o)]) h.taken, fun k e hlt => ?_⟩
    by_cases hk : k = key o
    · subst hk
      simp only [Function.update_self]
    · simp only [Function.update_of_ne hk]
      exact h.table k e hlt

/-- Without its purges a run takes the same. -/
theorem Agree.run {events : List (Event O T)} (h : Agree now s s')
    (htimes : (events.map Event.time).Pairwise (· ≤ ·)) (hnow : ∀ event ∈ events, now ≤ event.time) :
    (events.foldl (next key expiry) s).taken =
      ((events.filter Event.isOffer).foldl (next key expiry) s').taken := by
  induction events generalizing now s s' with
  | nil => exact h.taken
  | cons event events ih =>
    obtain ⟨hfirst, htail⟩ := List.pairwise_cons.mp htimes
    have hhere := h.mono (hnow event List.mem_cons_self)
    have hrest : ∀ event' ∈ events, event.time ≤ event'.time := fun event' hevent' =>
      hfirst _ (List.mem_map_of_mem hevent')
    cases event with
    | offer now' o =>
      rw [List.filter_cons_of_pos rfl]
      exact ih hhere.offer htail hrest
    | purge now' =>
      rw [List.filter_cons_of_neg (by simp [Event.isOffer])]
      exact ih hhere.purge htail hrest

/-- Purges never change what is taken. -/
theorem taken_filter {events : List (Event O T)} (htimes : (events.map Event.time).Pairwise (· ≤ ·)) :
    (events.foldl (next key expiry) {}).taken =
      ((events.filter Event.isOffer).foldl (next key expiry) {}).taken := by
  cases events with
  | nil => rfl
  | cons event events =>
    exact (agree_refl event.time {}).run htimes (first_le htimes)

end Agree

end Suppression
