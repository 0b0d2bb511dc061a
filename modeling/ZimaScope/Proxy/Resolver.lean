import ZimaScope.Common.Model
import ZimaScope.Lib.Along
import ZimaScope.Lib.Table

/-! # The proxy resolver

A poller asks the control API of a proxy for its connections and keeps what they
resolve to. The request runs outside of the lock, between the step that copies the
target and the step that stores what came of it, and `configure` may come between
the two.
-/

namespace ZimaScope

/-- One proxy connection resolved to a real destination. -/
structure ProxyResolution where
  host : Option String := none
  realAddress : Option IpAddr := none
  country : Option String := none
  asn : Option UInt32 := none
  chains : List String := []
  deriving DecidableEq

/-- Client socket identity used to match an observed flow to a proxy connection. -/
structure ProxyKey where
  client : IpAddr
  clientPort : UInt16
  destinationPort : UInt16
  deriving DecidableEq

/-- Builds a key for a flow whose remote side is a fake address. -/
def ProxyKey.forFakeFlow (client : IpAddr) (clientPort destinationPort : Option UInt16) :
    Option ProxyKey :=
  match clientPort, destinationPort with
  | some clientPort, some destinationPort => some ⟨client, clientPort, destinationPort⟩
  | _, _ => none

abbrev Resolutions := Table ProxyKey ProxyResolution

/-- Integration state surfaced through `/v1/status`. -/
structure ProxyStatus where
  enabled : Bool := false
  reachable : Bool := false
  mapped : ℕ := 0
  lastError : Option String := none
  deriving DecidableEq

structure Target where
  url : String
  secret : String
  deriving DecidableEq

/-- What the lock protects. -/
structure ProxyShared where
  target : Option Target := none
  resolutions : Resolutions := ∅
  status : ProxyStatus := {}
  deriving DecidableEq

namespace ProxyShared

/-- Applies the current settings; disabling clears all mappings. -/
def configure (shared : ProxyShared) (enabled : Bool) (controllerUrl secret : String) :
    ProxyShared :=
  if !enabled || controllerUrl = "" then
    { target := none
      resolutions := ∅
      status := { enabled } }
  else
    { shared with
      target := some ⟨controllerUrl, secret⟩
      status := { shared.status with enabled } }

/-- Resolves a fake-IP flow by client socket. -/
def lookup (shared : ProxyShared) (key : ProxyKey) : Option ProxyResolution :=
  shared.resolutions.find key

/-- What the poller does with the outcome of a request. -/
def store (shared : ProxyShared) : Except String Resolutions → ProxyShared
  | .ok resolutions =>
    { shared with
      resolutions
      status :=
        { shared.status with reachable := true, lastError := none, mapped := resolutions.rows.length } }
  | .error error =>
    { shared with status := { shared.status with reachable := false, lastError := some error } }

end ProxyShared

/-- Resolutions that were stored: the target they were fetched from and the one configured then. -/
structure StoredFetch where
  fetched : Target
  configured : Option Target

/-- The resolver: the target of the request under way, if there is one, and what was stored so far. -/
structure ProxyResolver where
  shared : ProxyShared := {}
  fetching : Option Target := none
  stores : List StoredFetch := []

inductive ProxyEvent
  | configure (enabled : Bool) (controllerUrl secret : String)
  /-- The poller wakes up and copies the target. -/
  | copyTarget
  /-- The request under way ends. -/
  | store (outcome : Except String Resolutions)

namespace ProxyResolver

def next (r : ProxyResolver) : ProxyEvent → ProxyResolver
  | .configure enabled controllerUrl secret =>
    { r with shared := r.shared.configure enabled controllerUrl secret }
  | .copyTarget =>
    match r.fetching with
    | none => { r with fetching := r.shared.target }
    | some _ => r
  | .store outcome =>
    match r.fetching with
    | none => r
    | some fetched =>
      { shared := r.shared.store outcome
        fetching := none
        stores :=
          match outcome with
          | .ok _ => r.stores ++ [⟨fetched, r.shared.target⟩]
          | .error _ => r.stores }

/-- While the integration is disabled nothing is resolved or shown, and what was stored came from
the controller of the time. -/
structure Cleared (r : ProxyResolver) : Prop where
  lookup : r.shared.status.enabled = false → ∀ key, r.shared.lookup key = none
  status : r.shared.status.enabled = false →
    r.shared.status.reachable = false ∧ r.shared.status.mapped = 0
  controller : ∀ stored ∈ r.stores, stored.configured.map Target.url = some stored.fetched.url

/-- A request does not end with resolutions after its controller was replaced or given up. -/
def InTime (r : ProxyResolver) : ProxyEvent → Prop
  | .store (.ok _) =>
    ∀ fetched ∈ r.fetching, r.shared.target.map Target.url = some fetched.url
  | _ => True

/-- Whatever has no target resolves nothing, and what is disabled has no target. -/
structure Inv (r : ProxyResolver) : Prop where
  target : r.shared.status.enabled = false → r.shared.target = none
  empty : r.shared.target = none →
    r.shared.resolutions = ∅ ∧ r.shared.status.reachable = false ∧ r.shared.status.mapped = 0
  controller : ∀ stored ∈ r.stores, stored.configured.map Target.url = some stored.fetched.url

variable {r : ProxyResolver} {event : ProxyEvent}

theorem Inv.cleared (h : r.Inv) : r.Cleared where
  lookup hoff key := by
    rw [ProxyShared.lookup, (h.empty (h.target hoff)).1]
    exact Table.find_empty
  status hoff := (h.empty (h.target hoff)).2
  controller := h.controller

theorem inv_configure {enabled : Bool} {controllerUrl secret : String} (h : r.Inv) :
    (r.next (.configure enabled controllerUrl secret)).Inv := by
  unfold next ProxyShared.configure
  dsimp only
  split
  · exact ⟨fun _ => rfl, fun _ => ⟨rfl, rfl, rfl⟩, h.controller⟩
  · next hon =>
    simp only [Bool.or_eq_true, Bool.not_eq_true', decide_eq_true_eq, not_or] at hon
    exact ⟨fun hoff => absurd hoff hon.1, fun hnone => (by cases hnone), h.controller⟩

theorem inv_next (h : r.Inv) (hevent : r.InTime event) : (r.next event).Inv := by
  cases event with
  | configure enabled controllerUrl secret => exact inv_configure h
  | copyTarget =>
    unfold next
    dsimp only
    split
    · exact ⟨h.target, h.empty, h.controller⟩
    · exact h
  | store outcome =>
    unfold next
    dsimp only
    cases hfetching : r.fetching with
    | none => exact h
    | some fetched =>
      cases outcome with
      | error e =>
        exact ⟨h.target, fun hnone => ⟨(h.empty hnone).1, rfl, (h.empty hnone).2.2⟩, h.controller⟩
      | ok resolutions =>
        have hurl := hevent fetched hfetching
        refine ⟨h.target, fun hnone => ?_, fun stored hstored => ?_⟩
        · change r.shared.target = none at hnone
          rw [hnone] at hurl
          cases hurl
        · rcases List.mem_append.mp hstored with hstored | hstored
          · exact h.controller stored hstored
          · obtain rfl := List.mem_singleton.mp hstored
            exact hurl

/-- Resolutions that come too late are stored. -/
theorem not_cleared_of_late (h : ¬r.InTime event) : ¬(r.next event).Cleared := by
  intro hcleared
  refine h ?_
  cases event with
  | configure => trivial
  | copyTarget => trivial
  | store outcome =>
    cases outcome with
    | error e => trivial
    | ok resolutions =>
      intro fetched hfetching
      have hstores := hcleared.controller
      unfold next at hstores
      rw [Option.mem_def.mp hfetching] at hstores
      exact hstores ⟨fetched, r.shared.target⟩ (List.mem_append_right _ (List.mem_singleton_self _))

/-- A disabled resolver stays cleared, and nothing is stored from an earlier controller, along
exactly the runs in which no request ends too late. -/
theorem cleared_along_iff (events : List ProxyEvent) : Along next Cleared {} events ↔
    ∀ before event behind, events = before ++ event :: behind →
      (before.foldl next {}).InTime event := by
  constructor
  · rintro h before event behind rfl
    by_contra hlate
    rw [← List.singleton_append, ← List.append_assoc] at h
    have hcleared := h.after
    rw [List.foldl_append] at hcleared
    exact not_cleared_of_late hlate hcleared
  · intro h
    have hinit : Inv {} := ⟨fun _ => rfl, fun _ => ⟨rfl, rfl, rfl⟩, fun _ hstored => by cases hstored⟩
    have hinv : Along next Inv {} events :=
      .of_steps hinit fun before event behind hevents hinv =>
        inv_next hinv (h before event behind hevents)
    exact hinv.mono fun _ hinv => hinv.cleared

/-- The socket of one connection. -/
def lateKey : ProxyKey := ⟨.v4 (.new 192 168 100 9), 50123, 443⟩

/-- A request that ends after the integration was disabled. -/
def lateStore : List ProxyEvent :=
  [.configure true "http://192.168.100.3:9090" "", .copyTarget, .configure false "" "",
    .store (.ok ((∅ : Resolutions).upsert lateKey fun _ => {}))]

/-- What it brings is resolved and shown, and no poll removes it. -/
theorem late_store_stays :
    ¬Along next Cleared {} lateStore ∧ (lateStore.foldl next {}).shared.lookup lateKey ≠ none ∧
      (lateStore.foldl next {}).next .copyTarget = lateStore.foldl next {} := by
  have hlookup : (lateStore.foldl next {}).shared.lookup lateKey = some {} :=
    Table.find_upsert_self
  refine ⟨fun h => ?_, ?_, rfl⟩
  · have hnone := h.last.lookup rfl lateKey
    rw [hlookup] at hnone
    cases hnone
  · rw [hlookup]
    simp

end ProxyResolver

end ZimaScope
