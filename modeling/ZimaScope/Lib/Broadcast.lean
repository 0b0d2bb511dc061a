import Mathlib.Data.List.Basic

/-! # Broadcast channels

One sender, and receivers that join at any time and get what is sent from then
on, each at its own pace. A receiver that falls too far behind is told so and
goes on somewhere further.
-/

namespace Broadcast

variable {α : Type*}

/-- What a receiver gets. -/
inductive Message (α : Type*)
  | value (a : α)
  | lagged

/-- A channel: for what was sent and the position of a receiver, its next message, if there is one,
and the position after it. -/
structure Channel (α : Type*) where
  recv : List α → ℕ → Option (Message α × ℕ)
  recv_value : ∀ sent next a next', recv sent next = some (.value a, next') →
    sent[next]? = some a ∧ next' = next + 1
  recv_lagged : ∀ sent next next', recv sent next = some (.lagged, next') →
    next ≤ next' ∧ next' ≤ sent.length

/-- The channel that keeps the last `capacity` values. -/
def bounded (capacity : ℕ) : Channel α where
  recv sent next :=
    if next + capacity < sent.length then some (.lagged, sent.length - capacity)
    else sent[next]?.map fun a => (.value a, next + 1)
  recv_value sent next a next' h := by
    split at h
    · simp at h
    · obtain ⟨b, hb, heq⟩ := Option.map_eq_some_iff.mp h
      obtain ⟨hvalue, hnext⟩ := Prod.ext_iff.mp heq
      obtain rfl : b = a := Message.value.inj hvalue
      exact ⟨hb, hnext.symm⟩
  recv_lagged sent next next' h := by
    split at h
    · obtain ⟨-, rfl⟩ := Prod.ext_iff.mp (Option.some.inj h)
      constructor
      · simp only
        omega
      · exact Nat.sub_le _ _
    · obtain ⟨b, -, heq⟩ := Option.map_eq_some_iff.mp h
      simp at heq

namespace Channel

variable {channel : Channel α} {sent : List α} {next next' : ℕ} {message : Message α}

theorem recv_le (h : channel.recv sent next = some (message, next')) :
    next ≤ next' ∧ next' ≤ sent.length := by
  cases message with
  | value a =>
    obtain ⟨hget, rfl⟩ := channel.recv_value _ _ _ _ h
    have hlt : next < sent.length := (List.getElem?_eq_some_iff.mp hget).1
    omega
  | lagged => exact channel.recv_lagged _ _ _ h

/-- What holds of everything sent from a position on holds of what is received, and from the next
position on. -/
theorem recv_forall {P : α → Prop} (h : channel.recv sent next = some (message, next'))
    (hp : ∀ i a, next ≤ i → sent[i]? = some a → P a) :
    (∀ a, message = .value a → P a) ∧ ∀ i a, next' ≤ i → sent[i]? = some a → P a := by
  constructor
  · rintro a rfl
    exact hp next a (Nat.le_refl _) (channel.recv_value _ _ _ _ h).1
  · intro i a hi
    exact hp i a (Nat.le_trans (recv_le h).1 hi)

end Channel

end Broadcast
