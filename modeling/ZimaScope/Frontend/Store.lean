import Mathlib.Data.List.Chain
import ZimaScope.Api.Tick
import ZimaScope.Lib.Broadcast
import ZimaScope.Lib.System

/-! # The live stream in the frontend

The connection manager of the store and what is on the other end of its event
source. Ticks are lost when a connection falls behind or drops, and while there is
none; a listener is told of it by a resync.
-/

namespace ZimaScope

open Broadcast

/-- A value of a query. -/
inductive QueryValue
  | text (value : String)
  | number (value : ℕ)
  | flag (value : Bool)
  deriving DecidableEq

/-- The entries of a `StreamQuery` object that are neither `null` nor `undefined`. -/
abbrev StreamParams := List (String × QueryValue)

/-- The key of a filter set: what is not empty, by name. -/
def StreamParams.key (query : StreamParams) : StreamParams :=
  (query.filter fun entry => entry.2 ≠ .text "").mergeSort fun left right => left.1 ≤ right.1

/-- An event of a stream. -/
inductive SseEvent
  | tick (tick : TickDto)
  | resync

/-- The sequence number of a tick. -/
def SseEvent.sequence? : SseEvent → Option ℕ
  | .tick payload => some payload.sequence
  | .resync => none

/-- One response of `/v1/stream`: the position of its receiver, and what is on the way. -/
structure StreamResponse where
  filter : StreamFilter
  next : ℕ
  inFlight : List SseEvent := []

inductive ReadyState
  | connecting
  | opened (response : StreamResponse)
  | closed

structure EventSource where
  url : StreamParams
  lastEventId : Option ℕ := none
  readyState : ReadyState := .connecting

def EventSource.connecting (source : EventSource) : Bool :=
  match source.readyState with
  | .connecting => true
  | _ => false

/-- A listener, with the ticks it got and the resyncs notified since it subscribed. -/
structure TickListener where
  id : ℕ
  heard : List SseEvent := []

/-- The variables of the store; a key that is `""` is `none`. -/
structure Store where
  listeners : List TickListener := []
  eventSource : Option EventSource := none
  tickerStarted : Bool := false
  streamQuery : StreamParams := []
  streamQueryKey : Option StreamParams := none
  openQueryKey : Option StreamParams := none
  stopTimer : Bool := false
  visibilityPaused : Bool := false

namespace Store

variable (s : Store)

def notify (event : SseEvent) : Store :=
  { s with listeners := s.listeners.map fun l => { l with heard := l.heard ++ [event] } }

def notifyResync : Store := s.notify .resync

def openStream : Store :=
  { s with eventSource := some { url := s.streamQuery }, openQueryKey := s.streamQueryKey }

def stopTicker : Store :=
  { s with eventSource := none, openQueryKey := none, tickerStarted := false }

def ensureTicker : Store :=
  if s.visibilityPaused then s
  else if s.tickerStarted then
    if s.eventSource.isNone || s.openQueryKey ≠ s.streamQueryKey then s.openStream else s
  else ({ s with tickerStarted := true } : Store).openStream

def setStreamQuery (query : StreamParams) : Store :=
  let key := some query.key
  if key = s.streamQueryKey then s
  else
    let s := { s with streamQueryKey := key, streamQuery := query }
    if s.tickerStarted && !s.listeners.isEmpty && s.openQueryKey ≠ key then s.openStream else s

def subscribeTicks (id : ℕ) : Store :=
  let listeners := if s.listeners.any fun l => l.id = id then s.listeners else s.listeners ++ [⟨id, []⟩]
  ({ s with stopTimer := false, listeners } : Store).ensureTicker

def unsubscribe (id : ℕ) : Store :=
  let listeners := s.listeners.filter fun l => l.id ≠ id
  { s with listeners, stopTimer := s.stopTimer || listeners.isEmpty }

/-- The timer that the last listener left behind. -/
def stopTimeout : Store :=
  if s.stopTimer then
    let s := { s with stopTimer := false }
    if s.listeners.isEmpty then s.stopTicker else s
  else s

/-- `handleVisibilityChange`. -/
def visibilityChange (hidden : Bool) : Store :=
  if hidden then
    { if s.tickerStarted then s.stopTicker else s with visibilityPaused := true }
  else if !s.visibilityPaused then s
  else
    let s := { s with visibilityPaused := false }
    if s.listeners.isEmpty then s else s.ensureTicker.notifyResync

end Store

/-- The server with its broadcast ticks, and one page. -/
structure Page where
  sequence : ℕ := 0
  events : List LiveEvent := []
  store : Store := {}

inductive PageEvent
  /-- The collector's next batch, broadcast. -/
  | broadcast (event : LiveEvent)
  /-- The request of the event source arrives. -/
  | connect
  /-- The response takes the next message of the channel. -/
  | poll
  /-- The browser dispatches the next event. -/
  | dispatch
  /-- The connection is lost; the event source will connect again. -/
  | drop
  | subscribe (id : ℕ)
  | unsubscribe (id : ℕ)
  | stopTimeout
  | setStreamQuery (query : StreamParams)
  | visibilityChange (hidden : Bool)

section Pages

variable (channel : Channel LiveEvent) (accept : StreamParams → Option StreamFilter)

/-- `stream`: the answer to a request; a filter that cannot be read is rejected. -/
def streamResponse (events : List LiveEvent) (source : EventSource) : ReadyState :=
  match accept source.url with
  | some filter =>
    .opened ⟨filter, events.length, if source.lastEventId.isSome then [.resync] else []⟩
  | none => .closed

/-- One message of the channel becomes an event. -/
def StreamResponse.poll (events : List LiveEvent) (response : StreamResponse) : StreamResponse :=
  match channel.recv events response.next with
  | some (.value event, next) =>
    { response with next, inFlight := response.inFlight ++ [.tick (event.tick response.filter)] }
  | some (.lagged, next) => { response with next, inFlight := response.inFlight ++ [.resync] }
  | none => response

/-- The handlers of an event; a tick carries its sequence number as its id. -/
def Store.dispatch (s : Store) (source : EventSource) (response : StreamResponse) : Store :=
  match response.inFlight with
  | [] => s
  | event :: rest =>
    let lastEventId := match event with
      | .tick tick => some tick.sequence
      | .resync => source.lastEventId
    ({ s with eventSource := some {
        source with lastEventId, readyState := .opened { response with inFlight := rest } } } :
      Store).notify event

def Page.next (p : Page) : PageEvent → Page
  | .broadcast event =>
    let sequence := (p.sequence + 1) % 2 ^ 64
    { p with sequence, events := p.events ++ [{ event with sequence }] }
  | .connect =>
    match p.store.eventSource with
    | some ⟨url, lastEventId, .connecting⟩ =>
      { p with store.eventSource := some ⟨url, lastEventId,
          streamResponse accept p.events ⟨url, lastEventId, .connecting⟩⟩ }
    | _ => p
  | .poll =>
    match p.store.eventSource with
    | some ⟨url, lastEventId, .opened response⟩ =>
      { p with store.eventSource := some ⟨url, lastEventId, .opened (response.poll channel p.events)⟩ }
    | _ => p
  | .dispatch =>
    match p.store.eventSource with
    | some ⟨url, lastEventId, .opened response⟩ =>
      { p with store := p.store.dispatch ⟨url, lastEventId, .opened response⟩ response }
    | _ => p
  | .drop =>
    match p.store.eventSource with
    | some ⟨url, lastEventId, .opened _⟩ =>
      { p with store.eventSource := some ⟨url, lastEventId, .connecting⟩ }
    | _ => p
  | .subscribe id => { p with store := p.store.subscribeTicks id }
  | .unsubscribe id => { p with store := p.store.unsubscribe id }
  | .stopTimeout => { p with store := p.store.stopTimeout }
  | .setStreamQuery query => { p with store := p.store.setStreamQuery query }
  | .visibilityChange hidden => { p with store := p.store.visibilityChange hidden }

/-- The runs of a page and its server whose events meet a condition. -/
def pages (cond : Page → PageEvent → Prop) : System Page where
  init p := p.events = [] ∧ p.store = {}
  step p p' := ∃ event, cond p event ∧ p' = p.next channel accept event

end Pages

/-- Between two ticks that are not of successive batches is a resync. -/
def NoSilentGap (heard : List SseEvent) : Prop :=
  ∀ before a between b after, heard = before ++ .tick a :: between ++ .tick b :: after →
    (∀ tick, .tick tick ∉ between) →
      a.sequence + 1 < b.sequence ∨ b.sequence + 1 < a.sequence → .resync ∈ between

/-- A connection made without the id of an event begins where every listener is, and the counter of
batches does not wrap. -/
def InTime (accept : StreamParams → Option StreamFilter) (p : Page) : PageEvent → Prop
  | .connect => ∀ source ∈ p.store.eventSource,
    source.connecting = true → source.lastEventId = none → (accept source.url).isSome = true →
      ∀ l ∈ p.store.listeners, ∀ sequence ∈ l.heard.getLast?.bind SseEvent.sequence?,
        sequence = p.sequence
  | .broadcast _ => p.sequence + 1 < 2 ^ 64
  | _ => True

instance {accept : StreamParams → Option StreamFilter} {p : Page} :
    DecidablePred (InTime accept p)
  | .connect => inferInstanceAs (Decidable (∀ source ∈ p.store.eventSource, _))
  | .broadcast _ => inferInstanceAs (Decidable (_ < _))
  | .poll | .dispatch | .drop | .subscribe _ | .unsubscribe _ | .stopTimeout | .setStreamQuery _
  | .visibilityChange _ => inferInstanceAs (Decidable True)

/-! ## What is heard and what is on the way -/

/-- Of two events in a row that are ticks, the second is the next one. -/
def SseEvent.Follows : SseEvent → SseEvent → Prop
  | .tick a, .tick b => b.sequence = a.sequence + 1
  | _, _ => True

theorem SseEvent.follows_resync (event : SseEvent) : event.Follows .resync := by
  cases event <;> trivial

theorem noSilentGap_of_isChain {heard : List SseEvent} (h : heard.IsChain SseEvent.Follows) :
    NoSilentGap heard := by
  rintro before a between b after rfl hticks hgap
  cases between with
  | nil =>
    have hfollows : (SseEvent.tick a).Follows (.tick b) := by
      simp only [List.append_assoc, List.cons_append, List.nil_append] at h
      exact (List.isChain_append_cons_cons.mp h).2.1
    have hnext : b.sequence = a.sequence + 1 := hfollows
    omega
  | cons event rest =>
    cases event with
    | tick tick => exact absurd List.mem_cons_self (hticks tick)
    | resync => exact List.mem_cons_self

/-- Events that follow one another, up to the batch numbered `position`. -/
structure Joined (position : ℕ) (events : List SseEvent) : Prop where
  chain : events.IsChain SseEvent.Follows
  last : ∀ tick, events.getLast? = some (.tick tick) → tick.sequence + 1 = position

namespace Joined

variable {position : ℕ} {heard events : List SseEvent}

theorem nil : Joined position [] := ⟨.nil, by simp⟩

theorem tick (h : Joined position events) {tick : TickDto} (htick : tick.sequence = position) :
    Joined (position + 1) (events ++ [.tick tick]) := by
  constructor
  · rw [List.isChain_append]
    refine ⟨h.chain, .singleton _, ?_⟩
    rintro event hlast _ ⟨rfl⟩
    cases event with
    | tick last => exact htick.trans (h.last last hlast).symm
    | resync => trivial
  · intro last hlast
    rw [List.getLast?_concat] at hlast
    obtain rfl := SseEvent.tick.inj (Option.some.inj hlast)
    rw [htick]

theorem resync (h : events.IsChain SseEvent.Follows) (position : ℕ) :
    Joined position (events ++ [.resync]) := by
  constructor
  · rw [List.isChain_append]
    refine ⟨h, .singleton _, ?_⟩
    rintro event - _ ⟨rfl⟩
    exact event.follows_resync
  · simp

/-- A listener that joins late. -/
theorem right (h : Joined position (heard ++ events)) : Joined position events := by
  refine ⟨h.chain.right_of_append, fun tick hlast => h.last tick ?_⟩
  rw [List.getLast?_append, hlast]
  rfl

/-- A resync that is notified at once. -/
theorem insert_resync (h : Joined position (heard ++ events)) :
    Joined position (heard ++ [.resync] ++ events) := by
  have hheard := resync h.chain.left_of_append position
  constructor
  · rw [List.isChain_append]
    refine ⟨hheard.chain, h.chain.right_of_append, ?_⟩
    intro event hlast next _
    rw [List.getLast?_concat] at hlast
    obtain rfl := Option.some.inj hlast
    trivial
  · intro tick hlast
    rw [List.getLast?_append] at hlast
    cases hevents : events.getLast? with
    | none =>
      rw [hevents] at hlast
      simp at hlast
    | some event =>
      rw [hevents] at hlast
      obtain rfl := Option.some.inj hlast
      exact h.right.last tick hevents

end Joined

/-! ## The store -/

/-- What was heard has no gap, neither with what is on the way; batches are numbered from `base` on. -/
structure Store.Followed (base : ℕ) (s : Store) : Prop where
  heard : ∀ l ∈ s.listeners, l.heard.IsChain SseEvent.Follows
  late : ∀ url id response, s.eventSource = some ⟨url, id, .opened response⟩ →
    Joined (base + response.next) response.inFlight
  way : ∀ url id response, s.eventSource = some ⟨url, id, .opened response⟩ →
    ∀ l ∈ s.listeners, Joined (base + response.next) (l.heard ++ response.inFlight)

/-- What the functions of the store do: listeners come, go and are notified of a resync, and no
response is opened. -/
structure Store.Manages (s s' : Store) : Prop where
  listeners : ∀ l' ∈ s'.listeners, l'.heard = [] ∨
    ∃ l ∈ s.listeners, l'.heard = l.heard ∨ l'.heard = l.heard ++ [.resync]
  eventSource : ∀ url id response, s'.eventSource = some ⟨url, id, .opened response⟩ →
    s.eventSource = some ⟨url, id, .opened response⟩

namespace Store

variable {s s' : Store} {base : ℕ}

theorem Manages.followed (h : s.Manages s') (hs : s.Followed base) : s'.Followed base := by
  constructor
  · intro l' hl'
    rcases h.listeners l' hl' with hnew | ⟨l, hl, hsame | hresync⟩
    · rw [hnew]
      exact .nil
    · rw [hsame]
      exact hs.heard l hl
    · rw [hresync]
      exact (Joined.resync (hs.heard l hl) base).chain
  · intro url id response hsource
    exact hs.late url id response (h.eventSource url id response hsource)
  · intro url id response hsource l' hl'
    have hold := h.eventSource url id response hsource
    rcases h.listeners l' hl' with hnew | ⟨l, hl, hsame | hresync⟩
    · rw [hnew]
      exact hs.late url id response hold
    · rw [hsame]
      exact hs.way url id response hold l hl
    · rw [hresync]
      exact (hs.way url id response hold l hl).insert_resync

theorem Manages.refl : s.Manages s :=
  ⟨fun l hl => Or.inr ⟨l, hl, Or.inl rfl⟩, fun _ _ _ h => h⟩

/-- Functions that leave the event source alone or replace it, and listeners as they are or fewer. -/
theorem Manages.of_subset (hlisteners : s'.listeners ⊆ s.listeners)
    (hsource : s'.eventSource = s.eventSource ∨
      ∀ url id response, s'.eventSource ≠ some ⟨url, id, .opened response⟩) : s.Manages s' := by
  constructor
  · intro l hl
    exact Or.inr ⟨l, hlisteners hl, Or.inl rfl⟩
  · intro url id response h
    rcases hsource with hsame | hnone
    · rwa [hsame] at h
    · exact absurd h (hnone url id response)

theorem manages_openStream : s.Manages s.openStream :=
  .of_subset (List.Subset.refl _) (Or.inr (by simp [openStream]))

theorem manages_ensureTicker : s.Manages s.ensureTicker := by
  unfold ensureTicker
  split
  · exact .refl
  · split
    · split
      · exact manages_openStream
      · exact .refl
    · exact .of_subset (List.Subset.refl _) (Or.inr (by simp [openStream]))

theorem manages_setStreamQuery {query : StreamParams} : s.Manages (s.setStreamQuery query) := by
  unfold setStreamQuery
  simp only
  split
  · exact .refl
  · split
    · exact .of_subset (List.Subset.refl _) (Or.inr (by simp [openStream]))
    · exact .of_subset (List.Subset.refl _) (Or.inl rfl)

theorem manages_unsubscribe {id : ℕ} : s.Manages (s.unsubscribe id) :=
  .of_subset (fun _ h => List.mem_of_mem_filter h) (Or.inl rfl)

theorem manages_stopTimeout : s.Manages s.stopTimeout := by
  unfold stopTimeout
  split
  · simp only
    split
    · exact .of_subset (List.Subset.refl _) (Or.inr (by simp [stopTicker]))
    · exact .of_subset (List.Subset.refl _) (Or.inl rfl)
  · exact .refl

theorem listeners_ensureTicker : s.ensureTicker.listeners = s.listeners := by
  unfold ensureTicker openStream
  repeat' split
  all_goals rfl

theorem Manages.ensureTicker (h : s.Manages s') : s.Manages s'.ensureTicker := by
  have hensure : s'.Manages s'.ensureTicker := manages_ensureTicker
  constructor
  · rw [listeners_ensureTicker]
    exact h.listeners
  · intro url id response hsource
    exact h.eventSource url id response (hensure.eventSource url id response hsource)

theorem manages_subscribeTicks {id : ℕ} : s.Manages (s.subscribeTicks id) := by
  apply Manages.ensureTicker
  constructor
  · intro l' hl'
    simp only at hl'
    split at hl'
    · exact Or.inr ⟨l', hl', Or.inl rfl⟩
    · rcases List.mem_append.mp hl' with hold | hnew
      · exact Or.inr ⟨l', hold, Or.inl rfl⟩
      · obtain rfl := List.mem_singleton.mp hnew
        exact Or.inl rfl
  · exact fun _ _ _ h => h

theorem manages_visibilityChange {hidden : Bool} : s.Manages (s.visibilityChange hidden) := by
  unfold visibilityChange
  split
  · split
    · exact .of_subset (List.Subset.refl _) (Or.inr (by simp [stopTicker]))
    · exact .of_subset (List.Subset.refl _) (Or.inl rfl)
  · split
    · exact .refl
    · simp only
      split
      · exact .of_subset (List.Subset.refl _) (Or.inl rfl)
      · have hensure : s.Manages ({ s with visibilityPaused := false } : Store).ensureTicker :=
          Manages.ensureTicker (.of_subset (List.Subset.refl _) (Or.inl rfl))
        refine ⟨?_, hensure.eventSource⟩
        intro l' hl'
        obtain ⟨l, hl, rfl⟩ := List.mem_map.mp hl'
        rw [listeners_ensureTicker] at hl
        exact Or.inr ⟨l, hl, Or.inr rfl⟩

end Store

/-! ## Runs -/

/-- Batches are numbered from `base` on, and nothing heard has a gap. -/
structure Page.Followed (base : ℕ) (p : Page) : Prop where
  numbered : ∀ i event, p.events[i]? = some event → event.sequence = base + i
  counter : p.sequence + 1 = base + p.events.length
  store : p.store.Followed base

section Pages

variable {channel : Channel LiveEvent} {accept : StreamParams → Option StreamFilter} {p : Page}
  {base : ℕ} {event : PageEvent}

/-- What the next message of the channel adds. -/
theorem joined_poll {events : List LiveEvent} {response : StreamResponse} {heard : List SseEvent}
    (hnumbered : ∀ i event, events[i]? = some event → event.sequence = base + i)
    (h : Joined (base + response.next) (heard ++ response.inFlight)) :
    Joined (base + (response.poll channel events).next)
      (heard ++ (response.poll channel events).inFlight) := by
  unfold StreamResponse.poll
  split
  · next event next hrecv =>
    obtain ⟨hevent, rfl⟩ := channel.recv_value _ _ _ _ hrecv
    rw [← List.append_assoc]
    exact h.tick (hnumbered _ _ hevent)
  · next next hrecv =>
    rw [← List.append_assoc]
    exact .resync h.chain _
  · exact h

/-- A connection begins after what its client was told. -/
theorem followed_connect {url : StreamParams} {id : Option ℕ} (hp : p.Followed base)
    (hsource : p.store.eventSource = some ⟨url, id, .connecting⟩)
    (hintime : InTime accept p .connect) : (p.next channel accept .connect).Followed base := by
  simp only [Page.next, hsource]
  refine ⟨hp.numbered, hp.counter, hp.store.heard, ?_, ?_⟩
  · rintro _ _ response heq
    obtain ⟨rfl, rfl, hopened⟩ := EventSource.mk.inj (Option.some.inj heq)
    unfold streamResponse at hopened
    split at hopened
    · obtain rfl := ReadyState.opened.inj hopened
      split
      · exact Joined.resync .nil _
      · exact .nil
    · simp at hopened
  · rintro _ _ response heq l hl
    obtain ⟨rfl, rfl, hopened⟩ := EventSource.mk.inj (Option.some.inj heq)
    unfold streamResponse at hopened
    split at hopened
    · next filter haccept =>
      obtain rfl := ReadyState.opened.inj hopened
      cases id with
      | some last => exact Joined.resync (hp.store.heard l hl) _
      | none =>
        rw [Option.isSome_none, if_neg Bool.false_ne_true, List.append_nil]
        refine ⟨hp.store.heard l hl, fun tick hlast => ?_⟩
        have hsequence := hintime _ hsource rfl rfl (Option.isSome_of_eq_some haccept) l hl
          tick.sequence (by rw [hlast]; rfl)
        rw [hsequence]
        exact hp.counter
    · simp at hopened

/-- What the browser dispatches moves from what is on the way to what is heard. -/
theorem Store.followed_dispatch {s : Store} {url : StreamParams} {id : Option ℕ}
    {response : StreamResponse} (hs : s.Followed base)
    (hsource : s.eventSource = some ⟨url, id, .opened response⟩) :
    (s.dispatch ⟨url, id, .opened response⟩ response).Followed base := by
  have hlate := hs.late url id response hsource
  have hway := hs.way url id response hsource
  unfold Store.dispatch
  split
  · exact hs
  · next event rest hinFlight =>
    rw [hinFlight] at hlate hway
    have hmoved : ∀ l ∈ s.listeners, Joined (base + response.next) (l.heard ++ [event] ++ rest) := by
      intro l hl
      rw [List.append_assoc]
      exact hway l hl
    constructor
    · intro l' hl'
      obtain ⟨l, hl, rfl⟩ := List.mem_map.mp hl'
      exact (hmoved l hl).chain.left_of_append
    · rintro _ _ _ heq
      obtain ⟨-, -, hopened⟩ := EventSource.mk.inj (Option.some.inj heq)
      obtain rfl := ReadyState.opened.inj hopened
      have hrest : Joined (base + response.next) ([event] ++ rest) := hlate
      exact hrest.right
    · rintro _ _ _ heq l' hl'
      obtain ⟨-, -, hopened⟩ := EventSource.mk.inj (Option.some.inj heq)
      obtain rfl := ReadyState.opened.inj hopened
      obtain ⟨l, hl, rfl⟩ := List.mem_map.mp hl'
      exact hmoved l hl

theorem Page.Followed.next (hp : p.Followed base) (hintime : InTime accept p event) :
    (p.next channel accept event).Followed base := by
  have hmanages : ∀ {s : Store}, p.store.Manages s →
      ({ p with store := s } : Page).Followed base := fun h =>
    ⟨hp.numbered, hp.counter, h.followed hp.store⟩
  cases event with
  | broadcast event =>
    have hsequence : (p.sequence + 1) % 2 ^ 64 = p.sequence + 1 := Nat.mod_eq_of_lt hintime
    unfold Page.next
    simp only [hsequence]
    refine ⟨?_, ?_, hp.store⟩
    · intro i event' hevent
      rw [List.getElem?_append] at hevent
      split at hevent
      · exact hp.numbered i event' hevent
      · rw [List.getElem?_singleton] at hevent
        split at hevent
        · have hcounter := hp.counter
          obtain rfl := Option.some.inj hevent
          simp only
          omega
        · simp at hevent
    · rw [List.length_append, List.length_singleton, ← Nat.add_assoc, ← hp.counter]
  | connect =>
    rcases hsource : p.store.eventSource with _ | ⟨url, id, _ | response | _⟩
    case some.connecting => exact followed_connect hp hsource hintime
    all_goals
      simp only [Page.next, hsource]
      exact hp
  | poll =>
    rcases hsource : p.store.eventSource with _ | ⟨url, id, _ | response | _⟩
    case some.opened =>
      simp only [Page.next, hsource]
      refine ⟨hp.numbered, hp.counter, hp.store.heard, ?_, ?_⟩
      · rintro _ _ _ heq
        obtain ⟨-, -, hopened⟩ := EventSource.mk.inj (Option.some.inj heq)
        obtain rfl := ReadyState.opened.inj hopened
        have hlate : Joined (base + response.next) ([] ++ response.inFlight) :=
          hp.store.late _ _ _ hsource
        exact joined_poll hp.numbered hlate
      · rintro _ _ _ heq l hl
        obtain ⟨-, -, hopened⟩ := EventSource.mk.inj (Option.some.inj heq)
        obtain rfl := ReadyState.opened.inj hopened
        exact joined_poll hp.numbered (hp.store.way _ _ _ hsource l hl)
    all_goals
      simp only [Page.next, hsource]
      exact hp
  | dispatch =>
    rcases hsource : p.store.eventSource with _ | ⟨url, id, _ | response | _⟩
    case some.opened =>
      simp only [Page.next, hsource]
      exact ⟨hp.numbered, hp.counter, Store.followed_dispatch hp.store hsource⟩
    all_goals
      simp only [Page.next, hsource]
      exact hp
  | drop =>
    rcases hsource : p.store.eventSource with _ | ⟨url, id, _ | response | _⟩
    case some.opened =>
      simp only [Page.next, hsource]
      exact hmanages (.of_subset (List.Subset.refl _) (Or.inr (by simp)))
    all_goals
      simp only [Page.next, hsource]
      exact hp
  | subscribe id => exact hmanages Store.manages_subscribeTicks
  | unsubscribe id => exact hmanages Store.manages_unsubscribe
  | stopTimeout => exact hmanages Store.manages_stopTimeout
  | setStreamQuery query => exact hmanages Store.manages_setStreamQuery
  | visibilityChange hidden => exact hmanages Store.manages_visibilityChange

/-- In every run in which connections without an id are made in time, no listener has a gap that it
was not told of. -/
theorem no_silent_gap (hr : (pages channel accept (InTime accept)).Reachable p) :
    ∀ l ∈ p.store.listeners, NoSilentGap l.heard := by
  have hfollowed : ∃ base, p.Followed base := by
    apply hr.invariant (P := fun p => ∃ base, Page.Followed base p)
    · rintro p ⟨hevents, hstore⟩
      refine ⟨p.sequence + 1, by simp [hevents], by simp [hevents], ?_⟩
      rw [hstore]
      exact ⟨by simp, by simp, by simp⟩
    · rintro p _ ⟨base, hp⟩ ⟨event, hintime, rfl⟩
      exact ⟨base, hp.next hintime⟩
  obtain ⟨base, hp⟩ := hfollowed
  intro l hl
  exact noSilentGap_of_isChain (hp.store.heard l hl)

end Pages

/-! ## A connection that is replaced -/

/-- An event without traffic. -/
def quietEvent : LiveEvent where
  sequence := 0
  collectedAt := 0

/-- The events of a page whose server accepts any filter. -/
def playPage (events : List PageEvent) : Page :=
  events.foldl (Page.next (bounded 64) fun _ => some .all) {}

theorem reachable_playPage {cond : Page → PageEvent → Prop} {events : List PageEvent}
    (h : ∀ i (hi : i < events.length), cond (playPage (events.take i)) events[i]) :
    (pages (bounded 64) (fun _ => some .all) cond).Reachable (playPage events) := by
  induction events using List.reverseRecOn with
  | nil => exact .init ⟨rfl, rfl⟩
  | append_singleton events event ih =>
    have hearlier : (pages (bounded 64) (fun _ => some .all) cond).Reachable (playPage events) := by
      apply ih
      intro i hi
      have hcond := h i (by rw [List.length_append]; omega)
      rwa [List.take_append_of_le_length hi.le, List.getElem_append_left hi] at hcond
    have hevent := h events.length (by simp)
    rw [List.take_left, List.getElem_concat_length rfl] at hevent
    refine .step hearlier ⟨event, hevent, ?_⟩
    unfold playPage
    rw [List.foldl_append]
    rfl

/-- One tick that is heard, an event that ends the connection, and a batch before the next. -/
def interrupted (event : PageEvent) : List PageEvent :=
  [.subscribe 1, .connect, .broadcast quietEvent, .poll, .dispatch, event, .broadcast quietEvent,
    .connect, .broadcast quietEvent, .poll, .dispatch, .dispatch]

example : (playPage (interrupted .drop)).store.listeners.map (fun l =>
    l.heard.map SseEvent.sequence?) = [[some 1, none, some 3]] := by
  decide +kernel

theorem no_silent_gap_drop :
    (playPage (interrupted .drop)).store.listeners.length = 1 ∧
    ∀ l ∈ (playPage (interrupted .drop)).store.listeners, NoSilentGap l.heard :=
  ⟨by decide +kernel, no_silent_gap (reachable_playPage (by decide +kernel))⟩

/-- A filter that is changed replaces the connection, and what is sent in between is missed. -/
theorem filter_change_misses_tick : ¬ ∀ p : Page,
    (pages (bounded 64) (fun _ => some .all) fun _ _ => True).Reachable p →
      ∀ l ∈ p.store.listeners, NoSilentGap l.heard := by
  intro hall
  have hr : (pages (bounded 64) (fun _ => some .all) fun _ _ => True).Reachable
      (playPage (interrupted (.setStreamQuery [("protocol", .text "tcp")]))) :=
    reachable_playPage fun _ _ => trivial
  obtain ⟨l, hl, hheard⟩ : ∃ l ∈
      (playPage (interrupted (.setStreamQuery [("protocol", .text "tcp")]))).store.listeners,
        l.heard.map SseEvent.sequence? = [some 1, some 3] := by
    decide +kernel
  have hgap := hall _ hr l hl
  obtain ⟨first, rest, hlist, hfirst, hrest⟩ := List.map_eq_cons_iff.mp hheard
  obtain ⟨second, last, rfl, hsecond, hlast⟩ := List.map_eq_cons_iff.mp hrest
  obtain rfl := List.map_eq_nil_iff.mp hlast
  cases first with
  | resync => simp [SseEvent.sequence?] at hfirst
  | tick a =>
    cases second with
    | resync => simp [SseEvent.sequence?] at hsecond
    | tick b =>
      have ha : a.sequence = 1 := Option.some.inj hfirst
      have hb : b.sequence = 3 := Option.some.inj hsecond
      have htold := hgap [] a [] b [] hlist (by simp) (Or.inl (by omega))
      simp at htold

end ZimaScope
