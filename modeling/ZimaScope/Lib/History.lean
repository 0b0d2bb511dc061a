import Mathlib.Data.List.Basic

/-! # Histories

What was the case when each event of a history happened, by what had happened before it.
-/

namespace History

variable {ε : Type*} {P Q : List ε → ε → Prop} {log : List ε} {event : ε}

/-- A condition on each event and on what came before it. -/
def AtEach (P : List ε → ε → Prop) (log : List ε) : Prop :=
  ∀ before event after, log = before ++ event :: after → P before event

theorem atEach_nil : AtEach P [] := by
  intro before event after h
  exact absurd h.symm (List.append_ne_nil_of_right_ne_nil _ nofun)

theorem atEach_concat_iff : AtEach P (log ++ [event]) ↔ AtEach P log ∧ P log event := by
  constructor
  · intro h
    refine ⟨?_, h log event [] rfl⟩
    intro before e after hlog
    exact h before e (after ++ [event]) (by rw [hlog, List.append_assoc, List.cons_append])
  · rintro ⟨h, hevent⟩ before e after hlog
    rcases List.eq_nil_or_concat after with rfl | ⟨after, last, rfl⟩
    · obtain ⟨rfl, hlast⟩ := List.append_inj' hlog rfl
      obtain rfl := List.head_eq_of_cons_eq hlast
      exact hevent
    · rw [List.concat_eq_append, ← List.cons_append, ← List.append_assoc] at hlog
      exact h before e after (List.append_inj' hlog rfl).1

theorem AtEach.mono (h : AtEach P log) (hpq : ∀ before e, P before e → Q before e) : AtEach Q log :=
  fun before e after hlog => hpq before e (h before e after hlog)

/-- What an event adds to a list is still there unless an event after it takes it out. -/
theorem mem_foldl_of_kept {α : Type*} {next : List α → ε → List α} {a : α} {events : List ε}
    {list : List α} (hlist : a ∈ list)
    (hkept : ∀ e ∈ events, ∀ l, a ∈ l → a ∈ next l e) : a ∈ events.foldl next list := by
  induction events generalizing list with
  | nil => exact hlist
  | cons e events ih =>
    exact ih (hkept e List.mem_cons_self list hlist)
      fun e' he' => hkept e' (List.mem_cons_of_mem e he')

theorem filterMap_concat {α β : Type*} (f : α → Option β) (l : List α) (a : α) :
    (l ++ [a]).filterMap f = l.filterMap f ++ (f a).toList := by
  rw [List.filterMap_append]
  cases h : f a with
  | none => rw [List.filterMap_cons_none h, List.filterMap_nil, Option.toList_none]
  | some b => rw [List.filterMap_cons_some h, List.filterMap_nil, Option.toList_some]

end History
