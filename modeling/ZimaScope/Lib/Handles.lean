import Mathlib.Data.Multiset.MapFold

/-! # Handles

Resources that a program acquires from an environment and gives back. A handle is held from its
acquisition on until it is released; a release that is not confirmed abandons the handle. The
environment may take a resource away at any time.
-/

/-- A resource, told from all others by its number. -/
structure Handle (τ : Type*) where
  id : ℕ
  target : τ
  deriving DecidableEq, Repr

/-- The resources of an environment: those that are live, the next number, and those that a program
has given up without knowing them gone. -/
structure Handles (τ : Type*) where
  live : List (Handle τ)
  next : ℕ
  abandoned : List (Handle τ)

namespace Handles

variable {τ : Type*}

def acquire (handles : Handles τ) (target : τ) : Handle τ × Handles τ :=
  let handle : Handle τ := ⟨handles.next, target⟩
  (handle, { handles with live := handles.live ++ [handle], next := handles.next + 1 })

/-- Gives a handle back; whether that is confirmed is up to the environment. -/
def release [DecidableEq τ] (handles : Handles τ) (handle : Handle τ) (confirmed : Bool) : Handles τ :=
  if confirmed then { handles with live := handles.live.filter (· ≠ handle) }
  else { handles with abandoned := handles.abandoned ++ [handle] }

/-- The environment takes resources away. -/
def lose (handles : Handles τ) (kept : Handle τ → Bool) : Handles τ :=
  { handles with live := handles.live.filter kept }

/-- What a program holds: each handle once, and everything that is live and not abandoned. -/
structure Held (handles : Handles τ) (held : Multiset (Handle τ)) : Prop where
  live : ∀ handle ∈ handles.live, handle ∈ held ∨ handle ∈ handles.abandoned
  nodup : (held.map Handle.id).Nodup
  heldBelow : ∀ handle ∈ held, handle.id < handles.next
  liveBelow : ∀ handle ∈ handles.live, handle.id < handles.next

section Held

variable {handles : Handles τ} {held : Multiset (Handle τ)} {handle : Handle τ}

theorem held_none (h : handles.live = []) : handles.Held 0 where
  live := by simp [h]
  nodup := by simp
  heldBelow := by simp
  liveBelow := by simp [h]

theorem Held.acquire (h : handles.Held held) (target : τ) :
    (handles.acquire target).2.Held ((handles.acquire target).1 ::ₘ held) where
  live := by
    intro other hother
    rcases List.mem_append.mp hother with hlive | hnew
    · exact (h.live other hlive).imp_left (Multiset.mem_cons_of_mem ·)
    · obtain rfl := List.mem_singleton.mp hnew
      exact Or.inl (Multiset.mem_cons_self _ _)
  nodup := by
    rw [Multiset.map_cons, Multiset.nodup_cons]
    refine ⟨fun hmem => ?_, h.nodup⟩
    obtain ⟨other, hother, hid⟩ := Multiset.mem_map.mp hmem
    have hlt := h.heldBelow other hother
    rw [hid] at hlt
    exact Nat.lt_irrefl _ hlt
  heldBelow := by
    intro other hother
    rcases Multiset.mem_cons.mp hother with rfl | hother
    · exact Nat.lt_succ_self _
    · exact Nat.lt_succ_of_lt (h.heldBelow other hother)
  liveBelow := by
    intro other hother
    rcases List.mem_append.mp hother with hlive | hnew
    · exact Nat.lt_succ_of_lt (h.liveBelow other hlive)
    · obtain rfl := List.mem_singleton.mp hnew
      exact Nat.lt_succ_self _

theorem Held.release [DecidableEq τ] (h : handles.Held (handle ::ₘ held)) (confirmed : Bool) :
    (handles.release handle confirmed).Held held := by
  have hnodup := h.nodup
  rw [Multiset.map_cons, Multiset.nodup_cons] at hnodup
  have hbelow : ∀ other ∈ held, other.id < handles.next :=
    fun other hother => h.heldBelow other (Multiset.mem_cons_of_mem hother)
  unfold Handles.release
  cases confirmed with
  | true =>
    refine ⟨?_, hnodup.2, hbelow, fun other hother => h.liveBelow other (List.mem_of_mem_filter hother)⟩
    intro other hother
    obtain ⟨hlive, hne⟩ := List.mem_filter.mp hother
    rcases h.live other hlive with hheld | habandoned
    · exact Or.inl ((Multiset.mem_cons.mp hheld).resolve_left (of_decide_eq_true hne))
    · exact Or.inr habandoned
  | false =>
    refine ⟨?_, hnodup.2, hbelow, h.liveBelow⟩
    intro other hother
    rcases h.live other hother with hheld | habandoned
    · rcases Multiset.mem_cons.mp hheld with rfl | hheld
      · exact Or.inr (List.mem_append_right _ (List.mem_singleton_self _))
      · exact Or.inl hheld
    · exact Or.inr (List.mem_append_left _ habandoned)

theorem Held.lose (h : handles.Held held) (kept : Handle τ → Bool) : (handles.lose kept).Held held where
  live := fun handle hhandle => h.live handle (List.mem_of_mem_filter hhandle)
  nodup := h.nodup
  heldBelow := h.heldBelow
  liveBelow := fun handle hhandle => h.liveBelow handle (List.mem_of_mem_filter hhandle)

/-- What a program that holds nothing has left behind. -/
theorem Held.live_of_none (h : handles.Held 0) : ∀ handle ∈ handles.live, handle ∈ handles.abandoned :=
  fun handle hhandle => (h.live handle hhandle).resolve_left (Multiset.notMem_zero handle)

end Held

end Handles
