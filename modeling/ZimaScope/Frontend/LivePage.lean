import ZimaScope.Frontend.Store
import ZimaScope.Lib.Along

/-! # The connection manager of the store

A page with the timers and the event sources that its browser keeps for the store. After any
events of the page there is the one stream its listeners are to get, unless the page was
loaded where nobody sees it.
-/

namespace ZimaScope

/-- `String(value)`. -/
def QueryValue.toText : QueryValue → String
  | .text value => value
  | .number value => toString value
  | .flag value => toString value

/-- The parameters of `streamUrl`. -/
def streamUrl (query : StreamParams) : List (String × String) :=
  (query.filter fun entry => entry.2 ≠ .text "").map fun entry => (entry.1, entry.2.toText)

/-- An `EventSource` that is not closed. -/
structure OpenSource where
  id : ℕ
  url : List (String × String)
  deriving DecidableEq

/-- A timeout that is neither cleared nor called. -/
structure Timeout where
  handle : ℕ
  deadline : ℕ
  deriving DecidableEq

/-- A tick that was emitted: the connection it came from, and those open at the time. -/
structure EmittedTick where
  listener : ℕ
  source : ℕ
  opened : List ℕ
  deriving DecidableEq

/-- The variables of the store and what the browser has for them; a key that is `""` is `none`. -/
structure LivePage where
  listeners : List ℕ := []
  eventSource : Option ℕ := none
  tickerStarted : Bool := false
  streamQuery : StreamParams := []
  streamQueryKey : Option StreamParams := none
  openQueryKey : Option StreamParams := none
  stopTimer : Option ℕ := none
  visibilityPaused : Bool := false
  /-- `document.visibilityState`. -/
  hidden : Bool
  now : ℕ := 0
  opened : List OpenSource := []
  sources : ℕ := 0
  timers : List Timeout := []
  handles : ℕ := 0
  /-- The query that was asked for last. -/
  desired : StreamParams := []
  /-- When the last listener left. -/
  emptiedAt : ℕ := 0
  emitted : List EmittedTick := []

inductive LivePageEvent
  | subscribe (id : ℕ)
  | unsubscribe (id : ℕ)
  | setStreamQuery (query : StreamParams)
  | visibilityChange (hidden : Bool)
  | elapse (milliseconds : ℕ)
  /-- A timeout is called, if its time has come. -/
  | timeout (handle : ℕ)
  /-- A frame of an event source, open or not, is dispatched. -/
  | tick (source : ℕ) (malformed : Bool)
  deriving DecidableEq

namespace LivePage

/-- The store is loaded with its page. -/
def load (hidden : Bool) : LivePage := { hidden }

variable (p : LivePage)

/-- `eventSource?.close()`. -/
def closeSource : LivePage :=
  { p with opened := p.opened.filter fun source => some source.id ≠ p.eventSource }

def openStream : LivePage :=
  let p := p.closeSource
  { p with
    opened := p.opened ++ [⟨p.sources, streamUrl p.streamQuery⟩]
    sources := p.sources + 1
    eventSource := some p.sources
    openQueryKey := p.streamQueryKey }

def stopTicker : LivePage :=
  { p.closeSource with eventSource := none, openQueryKey := none, tickerStarted := false }

def ensureTicker : LivePage :=
  if p.visibilityPaused then p
  else if p.tickerStarted then
    -- The open connection is kept unless it carries stale filters.
    if p.eventSource.isNone || p.openQueryKey ≠ p.streamQueryKey then p.openStream else p
  else ({ p with tickerStarted := true } : LivePage).openStream

def setStreamQuery (query : StreamParams) : LivePage :=
  let p := { p with desired := query }
  let key := some query.key
  if key = p.streamQueryKey then p
  else
    let p := { p with streamQueryKey := key, streamQuery := query }
    if p.tickerStarted && !p.listeners.isEmpty && p.openQueryKey ≠ key then p.openStream else p

/-- `window.clearTimeout(stopTimer)`. -/
def clearStopTimer : LivePage :=
  match p.stopTimer with
  | some handle =>
    { p with timers := p.timers.filter fun timer => timer.handle ≠ handle, stopTimer := none }
  | none => p

def subscribeTicks (id : ℕ) : LivePage :=
  let p := p.clearStopTimer
  ensureTicker { p with
    listeners := if id ∈ p.listeners then p.listeners else p.listeners ++ [id] }

/-- What `subscribeTicks` returns. -/
def unsubscribe (id : ℕ) : LivePage :=
  let listeners := p.listeners.filter fun listener => listener ≠ id
  let emptiedAt := if p.listeners.isEmpty then p.emptiedAt else p.now
  if listeners.isEmpty then
    { p with
      listeners, emptiedAt
      timers := p.timers ++ [⟨p.handles, p.now + 2000⟩]
      handles := p.handles + 1
      stopTimer := some p.handles }
  else { p with listeners }

/-- The callback of the timeout. -/
def stopTimeout : LivePage :=
  let p := { p with stopTimer := none }
  if p.listeners.isEmpty then p.stopTicker else p

def handleVisibilityChange : LivePage :=
  if p.hidden then { if p.tickerStarted then p.stopTicker else p with visibilityPaused := true }
  else if !p.visibilityPaused then p
  else
    let p := { p with visibilityPaused := false }
    if p.listeners.isEmpty then p else p.ensureTicker

def emit (source : ℕ) : LivePage :=
  { p with emitted := p.emitted ++ p.listeners.map fun listener =>
      ⟨listener, source, p.opened.map OpenSource.id⟩ }

def next (p : LivePage) : LivePageEvent → LivePage
  | .subscribe id => p.subscribeTicks id
  | .unsubscribe id => p.unsubscribe id
  | .setStreamQuery query => p.setStreamQuery query
  | .visibilityChange hidden => handleVisibilityChange { p with hidden }
  | .elapse milliseconds => { p with now := p.now + milliseconds }
  | .timeout handle =>
    if p.timers.any fun timer => timer.handle = handle ∧ timer.deadline ≤ p.now then
      stopTimeout { p with timers := p.timers.filter fun timer => timer.handle ≠ handle }
    else p
  | .tick source malformed => if p.eventSource = some source ∧ !malformed then p.emit source else p

/-- The state after the events. -/
def run (p : LivePage) (events : List LivePageEvent) : LivePage := events.foldl next p

/-- There is one stream where one is due, and no other. -/
structure Right : Prop where
  one : p.opened.length ≤ 1
  watched : p.hidden = false → p.listeners ≠ [] →
    ∃ source, p.opened = [source] ∧ source.url.Perm (streamUrl p.desired)
  unwatched : p.listeners = [] → p.emptiedAt + 2000 ≤ p.now →
    (∀ timer ∈ p.timers, p.now < timer.deadline) → p.opened = []
  unseen : p.hidden = true → p.opened = []
  current : ∀ tick ∈ p.emitted, tick.opened = [tick.source]

/-! ## Filters -/

/-- Queries of one key ask for the same stream. -/
theorem streamUrl_perm {query query' : StreamParams} (h : query.key = query'.key) :
    (streamUrl query).Perm (streamUrl query') := by
  have hkey := List.mergeSort_perm (query.filter fun entry => entry.2 ≠ .text "")
    fun left right => left.1 ≤ right.1
  have hkey' := List.mergeSort_perm (query'.filter fun entry => entry.2 ≠ .text "")
    fun left right => left.1 ≤ right.1
  unfold StreamParams.key at h
  rw [h] at hkey
  exact (hkey.symm.trans hkey').map _

/-! ## The variables agree -/

/-- Nothing is open. -/
structure Stopped : Prop where
  eventSource : p.eventSource = none
  opened : p.opened = []
  tickerStarted : p.tickerStarted = false

/-- One connection is open, and the variables tell which. -/
structure Streaming (id : ℕ) (query : StreamParams) : Prop where
  eventSource : p.eventSource = some id
  opened : p.opened = [⟨id, streamUrl query⟩]
  tickerStarted : p.tickerStarted = true
  openQueryKey : p.openQueryKey.getD [] = query.key
  visibilityPaused : p.visibilityPaused = false

/-- There is one stream or none, as the variables say. -/
def Tracked : Prop := p.Stopped ∨ ∃ id query, p.Streaming id query

/-- What the variables say is so. -/
structure Consistent : Prop where
  stream : p.Tracked
  streamQuery : p.streamQuery.key = p.desired.key
  streamQueryKey : p.streamQueryKey.getD [] = p.desired.key
  visible : p.hidden = false → p.visibilityPaused = false
  current : ∀ tick ∈ p.emitted, tick.opened = [tick.source]

/-- Listeners that the store may serve get what they ask for, and what nobody listens to is about
to be closed. -/
structure Managed : Prop extends p.Consistent where
  served : p.visibilityPaused = false → p.listeners ≠ [] →
    p.tickerStarted = true ∧ p.openQueryKey = p.streamQueryKey
  stopping : p.listeners = [] → p.tickerStarted = true →
    ∃ timer ∈ p.timers, timer.deadline ≤ p.emptiedAt + 2000

section Operations

variable {p}

theorem Tracked.congr {p' : LivePage} (h : p.Tracked) (hsource : p'.eventSource = p.eventSource)
    (hopened : p'.opened = p.opened) (hstarted : p'.tickerStarted = p.tickerStarted)
    (hkey : p'.openQueryKey = p.openQueryKey)
    (hpaused : p'.visibilityPaused = p.visibilityPaused) : p'.Tracked := by
  rcases h with hs | ⟨id, query, hs⟩
  · exact Or.inl ⟨hsource.trans hs.eventSource, hopened.trans hs.opened,
      hstarted.trans hs.tickerStarted⟩
  · exact Or.inr ⟨id, query, hsource.trans hs.eventSource, hopened.trans hs.opened,
      hstarted.trans hs.tickerStarted, hkey ▸ hs.openQueryKey, hpaused.trans hs.visibilityPaused⟩

theorem Consistent.opened_closeSource (h : p.Consistent) : p.closeSource.opened = [] := by
  rcases h.stream with hs | ⟨id, query, hs⟩
  · simp [closeSource, hs.opened]
  · simp [closeSource, hs.opened, hs.eventSource]

/-- A stream that is stopped where none is due. -/
theorem Consistent.managed_of_stopped (h : p.Consistent) (hs : p.Stopped)
    (hdue : p.visibilityPaused = true ∨ p.listeners = []) : p.Managed := by
  refine ⟨h, fun hpaused hlisteners => ?_, fun _ hstarted => ?_⟩
  · rcases hdue with hdue | hdue
    · rw [hpaused] at hdue
      contradiction
    · exact absurd hdue hlisteners
  · rw [hs.tickerStarted] at hstarted
    contradiction

theorem Consistent.stopped_stopTicker (h : p.Consistent) : p.stopTicker.Stopped :=
  ⟨rfl, h.opened_closeSource, rfl⟩

theorem Consistent.stopTicker (h : p.Consistent) : p.stopTicker.Consistent :=
  ⟨Or.inl h.stopped_stopTicker, h.streamQuery, h.streamQueryKey, h.visible, h.current⟩

/-- The stream is opened for somebody. -/
theorem Consistent.managed_openStream (h : p.Consistent) (hpaused : p.visibilityPaused = false)
    (hlisteners : p.listeners ≠ []) :
    ({ p with tickerStarted := true } : LivePage).openStream.Managed := by
  have hopened : ({ p with tickerStarted := true } : LivePage).openStream.opened =
      [⟨p.sources, streamUrl p.streamQuery⟩] := by
    change p.closeSource.opened ++ _ = _
    rw [h.opened_closeSource]
    rfl
  have hkey : p.streamQueryKey.getD [] = p.streamQuery.key := by
    rw [h.streamQueryKey, h.streamQuery]
  refine ⟨⟨Or.inr ⟨p.sources, p.streamQuery, rfl, hopened, rfl, hkey, hpaused⟩, h.streamQuery,
    h.streamQueryKey, h.visible, h.current⟩, fun _ _ => ⟨rfl, rfl⟩, fun hnone => ?_⟩
  exact absurd hnone hlisteners

theorem tickerStarted_eta (h : p.tickerStarted = true) :
    ({ p with tickerStarted := true } : LivePage) = p := by
  rw [← h]

theorem Consistent.managed_ensureTicker (h : p.Consistent) (hlisteners : p.listeners ≠ []) :
    p.ensureTicker.Managed := by
  unfold ensureTicker
  split
  · next hpaused =>
    refine ⟨h, fun hnot => ?_, fun hnone => absurd hnone hlisteners⟩
    rw [hpaused] at hnot
    contradiction
  next hpaused =>
  have hpaused := eq_false_of_ne_true hpaused
  split
  · next hstarted =>
    split
    · rw [← tickerStarted_eta hstarted]
      exact h.managed_openStream hpaused hlisteners
    · next hkept =>
      simp only [Bool.or_eq_true, decide_eq_true_eq, not_or, not_not] at hkept
      exact ⟨h, fun _ _ => ⟨hstarted, hkept.2⟩, fun hnone => absurd hnone hlisteners⟩
  · exact h.managed_openStream hpaused hlisteners

/-- Neither who listens nor what waits is part of it. -/
theorem Consistent.frame (h : p.Consistent) (listeners : List ℕ) (stopTimer : Option ℕ)
    (timers : List Timeout) (handles emptiedAt now : ℕ) :
    ({ p with listeners, stopTimer, timers, handles, emptiedAt, now } : LivePage).Consistent :=
  ⟨h.stream.congr rfl rfl rfl rfl rfl, h.streamQuery, h.streamQueryKey, h.visible, h.current⟩

/-- Neither is what will be asked for. -/
theorem Consistent.retarget (h : p.Consistent) {desired streamQuery : StreamParams}
    {streamQueryKey : Option StreamParams} (hquery : streamQuery.key = desired.key)
    (hkey : streamQueryKey.getD [] = desired.key) :
    ({ p with desired, streamQuery, streamQueryKey } : LivePage).Consistent :=
  ⟨h.stream.congr rfl rfl rfl rfl rfl, hquery, hkey, h.visible, h.current⟩

/-! ## Each event -/

/-- Whoever subscribes is a listener. -/
theorem mem_listeners (listeners : List ℕ) (id : ℕ) :
    id ∈ if id ∈ listeners then listeners else listeners ++ [id] := by
  split
  · next hmem => exact hmem
  · exact List.mem_append_right _ (List.mem_singleton_self id)

theorem Managed.subscribeTicks (h : p.Managed) (id : ℕ) : (p.subscribeTicks id).Managed := by
  apply Consistent.managed_ensureTicker
  · unfold clearStopTimer
    split
    · exact h.toConsistent.frame _ _ _ _ _ _
    · exact h.toConsistent.frame _ _ _ _ _ _
  · exact List.ne_nil_of_mem (mem_listeners _ id)

theorem Managed.unsubscribe (h : p.Managed) (id : ℕ) : (p.unsubscribe id).Managed := by
  unfold LivePage.unsubscribe
  simp only
  split
  · next hempty =>
    rw [List.isEmpty_iff] at hempty
    refine ⟨h.toConsistent.frame _ _ _ _ _ _, fun _ hlisteners => absurd hempty hlisteners,
      fun _ hstarted => ?_⟩
    simp only
    split
    · next hbefore =>
      -- The timeout of the first time is still there.
      obtain ⟨timer, hmem, hdeadline⟩ := h.stopping (List.isEmpty_iff.mp hbefore) hstarted
      exact ⟨timer, List.mem_append_left _ hmem, hdeadline⟩
    · exact ⟨_, List.mem_append_right _ (List.mem_singleton_self _), le_rfl⟩
  · next hleft =>
    rw [List.isEmpty_iff] at hleft
    refine ⟨h.toConsistent.frame _ _ _ _ _ _, fun hpaused _ => h.served hpaused ?_,
      fun hnone => absurd hnone hleft⟩
    rintro hnone
    simp [hnone] at hleft

theorem Managed.setStreamQuery (h : p.Managed) (query : StreamParams) :
    (p.setStreamQuery query).Managed := by
  unfold LivePage.setStreamQuery
  simp only
  split
  · next hkey =>
    -- The query is another one of the same key.
    have hsame : p.desired.key = query.key := by
      rw [← h.streamQueryKey, ← hkey]
      rfl
    exact ⟨h.toConsistent.retarget (h.streamQuery.trans hsame) (h.streamQueryKey.trans hsame),
      h.served, h.stopping⟩
  · next hkey =>
    have hconsistent : LivePage.Consistent { p with
        desired := query, streamQuery := query, streamQueryKey := some query.key } :=
      h.toConsistent.retarget rfl rfl
    split
    · next hopen =>
      simp only [Bool.and_eq_true, Bool.not_eq_true', List.isEmpty_eq_false_iff] at hopen
      obtain ⟨⟨hstarted, hlisteners⟩, -⟩ := hopen
      have hpaused : p.visibilityPaused = false := by
        rcases h.stream with hs | ⟨id, query, hs⟩
        · rw [hs.tickerStarted] at hstarted
          contradiction
        · exact hs.visibilityPaused
      have hmanaged := hconsistent.managed_openStream hpaused hlisteners
      rw [tickerStarted_eta (p := { p with
        desired := query, streamQuery := query, streamQueryKey := some query.key }) hstarted]
        at hmanaged
      exact hmanaged
    · next hopen =>
      refine ⟨hconsistent, fun hpaused hlisteners => ?_, h.stopping⟩
      have hstarted := (h.served hpaused hlisteners).1
      refine ⟨hstarted, ?_⟩
      simpa [hstarted, hlisteners] using hopen

theorem Managed.timeout (h : p.Managed) (timers : List Timeout) :
    ({ p with timers } : LivePage).stopTimeout.Managed := by
  have hconsistent : ({ p with timers, stopTimer := none } : LivePage).Consistent :=
    h.toConsistent.frame _ _ _ _ _ _
  unfold stopTimeout
  simp only
  split
  · next hempty =>
    exact hconsistent.stopTicker.managed_of_stopped hconsistent.stopped_stopTicker
      (Or.inr (List.isEmpty_iff.mp hempty))
  · next hempty =>
    rw [List.isEmpty_iff] at hempty
    exact ⟨hconsistent, h.served, fun hnone => absurd hnone hempty⟩

theorem Managed.stopped_of_paused (h : p.Managed) (hpaused : p.visibilityPaused = true) :
    p.Stopped := by
  rcases h.stream with hs | ⟨id, query, hs⟩
  · exact hs
  · rw [hs.visibilityPaused] at hpaused
    contradiction

/-- The stream is stopped when the page is hidden, whatever it was before. -/
theorem Managed.hide (h : p.Managed) :
    (handleVisibilityChange { p with hidden := true }).Managed := by
  unfold handleVisibilityChange
  simp only [if_true]
  split
  · have hstopped : LivePage.Stopped
        { ({ p with hidden := true } : LivePage).stopTicker with visibilityPaused := true } :=
      ⟨rfl, h.opened_closeSource, rfl⟩
    exact Consistent.managed_of_stopped
      ⟨Or.inl hstopped, h.streamQuery, h.streamQueryKey, nofun, h.current⟩ hstopped (Or.inl rfl)
  · next hstarted =>
    have hstopped : LivePage.Stopped { p with hidden := true, visibilityPaused := true } := by
      rcases h.stream with hs | ⟨id, query, hs⟩
      · exact ⟨hs.eventSource, hs.opened, hs.tickerStarted⟩
      · exact absurd hs.tickerStarted hstarted
    exact Consistent.managed_of_stopped
      ⟨Or.inl hstopped, h.streamQuery, h.streamQueryKey, nofun, h.current⟩ hstopped (Or.inl rfl)

theorem Managed.show (h : p.Managed) :
    (handleVisibilityChange { p with hidden := false }).Managed := by
  unfold handleVisibilityChange
  simp only [Bool.false_eq_true, if_false]
  split
  · next hpaused =>
    simp only [Bool.not_eq_true'] at hpaused
    exact ⟨⟨h.stream.congr rfl rfl rfl rfl rfl, h.streamQuery, h.streamQueryKey,
      fun _ => hpaused, h.current⟩, h.served, h.stopping⟩
  · next hpaused =>
    simp only [Bool.not_eq_true', Bool.not_eq_false] at hpaused
    have hs := h.stopped_of_paused hpaused
    have hstopped : LivePage.Stopped { p with hidden := false, visibilityPaused := false } :=
      ⟨hs.eventSource, hs.opened, hs.tickerStarted⟩
    have hconsistent : LivePage.Consistent { p with hidden := false, visibilityPaused := false } :=
      ⟨Or.inl hstopped, h.streamQuery, h.streamQueryKey, fun _ => rfl, h.current⟩
    split
    · next hempty =>
      exact hconsistent.managed_of_stopped hstopped (Or.inr (List.isEmpty_iff.mp hempty))
    · next hempty =>
      rw [List.isEmpty_iff] at hempty
      exact hconsistent.managed_ensureTicker hempty

theorem Managed.emit (h : p.Managed) {source : ℕ} (hsource : p.eventSource = some source) :
    (p.emit source).Managed := by
  have hopened : p.opened.map OpenSource.id = [source] := by
    rcases h.stream with hs | ⟨id, query, hs⟩
    · rw [hs.eventSource] at hsource
      contradiction
    · rw [hs.eventSource] at hsource
      obtain rfl := Option.some.inj hsource
      rw [hs.opened]
      rfl
  refine ⟨⟨h.stream.congr rfl rfl rfl rfl rfl, h.streamQuery, h.streamQueryKey, h.visible, ?_⟩,
    h.served, h.stopping⟩
  intro tick hmem
  rcases List.mem_append.mp hmem with hold | hnew
  · exact h.current tick hold
  · obtain ⟨listener, -, rfl⟩ := List.mem_map.mp hnew
    exact hopened

theorem Managed.next (h : p.Managed) (event : LivePageEvent) : (p.next event).Managed := by
  cases event with
  | subscribe id => exact h.subscribeTicks id
  | unsubscribe id => exact h.unsubscribe id
  | setStreamQuery query => exact h.setStreamQuery query
  | visibilityChange hidden =>
    cases hidden with
    | false => exact h.show
    | true => exact h.hide
  | elapse milliseconds =>
    exact ⟨h.toConsistent.frame _ _ _ _ _ _, h.served, h.stopping⟩
  | timeout handle =>
    unfold LivePage.next
    simp only
    split
    · exact h.timeout _
    · exact h
  | tick source malformed =>
    unfold LivePage.next
    simp only
    split
    · next hdispatched => exact h.emit hdispatched.1
    · exact h

theorem managed_load (hidden : Bool) : (load hidden).Managed := by
  have hkey : StreamParams.key [] = [] := List.mergeSort_nil
  exact ⟨⟨Or.inl ⟨rfl, rfl, rfl⟩, rfl, hkey.symm, fun _ => rfl, fun _ hmem => nomatch hmem⟩,
    fun _ hlisteners => absurd rfl hlisteners, fun _ hstarted => nomatch hstarted⟩

theorem Managed.run (h : p.Managed) (events : List LivePageEvent) : (p.run events).Managed := by
  induction events generalizing p with
  | nil => exact h
  | cons event events ih => exact ih (h.next event)

/-! ## What is seen of the page -/

theorem listeners_ensureTicker : p.ensureTicker.listeners = p.listeners := by
  unfold ensureTicker
  split
  · rfl
  · split
    · split
      · rfl
      · rfl
    · rfl

theorem hidden_ensureTicker : p.ensureTicker.hidden = p.hidden ∧
    p.ensureTicker.visibilityPaused = p.visibilityPaused := by
  unfold ensureTicker
  split
  · exact ⟨rfl, rfl⟩
  · split
    · split
      · exact ⟨rfl, rfl⟩
      · exact ⟨rfl, rfl⟩
    · exact ⟨rfl, rfl⟩

/-- Only a visibility event says or changes what is seen. -/
theorem hidden_next {event : LivePageEvent} (h : ∀ hidden, event ≠ .visibilityChange hidden) :
    (p.next event).hidden = p.hidden ∧
      (p.next event).visibilityPaused = p.visibilityPaused := by
  cases event with
  | subscribe id =>
    unfold next subscribeTicks clearStopTimer
    simp only
    rw [hidden_ensureTicker.1, hidden_ensureTicker.2]
    split
    · exact ⟨rfl, rfl⟩
    · exact ⟨rfl, rfl⟩
  | unsubscribe id =>
    unfold next LivePage.unsubscribe
    simp only
    split
    · exact ⟨rfl, rfl⟩
    · exact ⟨rfl, rfl⟩
  | setStreamQuery query =>
    unfold next LivePage.setStreamQuery
    simp only
    split
    · exact ⟨rfl, rfl⟩
    · split
      · exact ⟨rfl, rfl⟩
      · exact ⟨rfl, rfl⟩
  | visibilityChange hidden => exact absurd rfl (h hidden)
  | elapse milliseconds => exact ⟨rfl, rfl⟩
  | timeout handle =>
    unfold next stopTimeout
    simp only
    split
    · split
      · exact ⟨rfl, rfl⟩
      · exact ⟨rfl, rfl⟩
    · exact ⟨rfl, rfl⟩
  | tick source malformed =>
    unfold next
    simp only
    split
    · exact ⟨rfl, rfl⟩
    · exact ⟨rfl, rfl⟩

/-- A visibility event leaves the store knowing what is seen. -/
theorem hidden_visibilityChange (hidden : Bool) :
    (p.next (.visibilityChange hidden)).visibilityPaused =
      (p.next (.visibilityChange hidden)).hidden := by
  cases hidden with
  | true =>
    unfold next handleVisibilityChange
    simp only [if_true]
    split
    · rfl
    · rfl
  | false =>
    unfold next handleVisibilityChange
    simp only [Bool.false_eq_true, if_false]
    split
    · next hpaused => simpa using hpaused
    · split
      · rfl
      · rw [hidden_ensureTicker.1, hidden_ensureTicker.2]

theorem hidden_run {events : List LivePageEvent}
    (h : ∀ hidden, .visibilityChange hidden ∉ events) :
    (p.run events).hidden = p.hidden ∧
      (p.run events).visibilityPaused = p.visibilityPaused := by
  induction events generalizing p with
  | nil => exact ⟨rfl, rfl⟩
  | cons event events ih =>
    have hnext : (p.next event).hidden = p.hidden ∧
        (p.next event).visibilityPaused = p.visibilityPaused :=
      hidden_next fun hidden heq => h hidden (heq ▸ List.mem_cons_self)
    have hrun := ih (p := p.next event) fun hidden hmem => h hidden (List.mem_cons_of_mem _ hmem)
    exact ⟨hrun.1.trans hnext.1, hrun.2.trans hnext.2⟩

/-- From the first visibility event on the store knows what is seen. -/
theorem paused_run {events : List LivePageEvent}
    (h : p.visibilityPaused = p.hidden ∨ ∃ hidden, .visibilityChange hidden ∈ events) :
    (p.run events).visibilityPaused = (p.run events).hidden := by
  induction events generalizing p with
  | nil => exact h.resolve_right fun ⟨_, hmem⟩ => nomatch hmem
  | cons event events ih =>
    apply ih
    by_cases hevent : ∃ hidden, event = .visibilityChange hidden
    · obtain ⟨hidden, rfl⟩ := hevent
      exact Or.inl (hidden_visibilityChange hidden)
    · rcases h with hknown | ⟨hidden, hmem⟩
      · have hnext := hidden_next (p := p) fun hidden heq => hevent ⟨hidden, heq⟩
        exact Or.inl (hnext.2.trans (hknown.trans hnext.1.symm))
      · rcases List.mem_cons.mp hmem with heq | hrest
        · exact absurd ⟨hidden, heq.symm⟩ hevent
        · exact Or.inr ⟨hidden, hrest⟩

theorem mem_listeners_subscribeTicks (id : ℕ) : id ∈ (p.subscribeTicks id).listeners := by
  unfold subscribeTicks
  rw [listeners_ensureTicker]
  exact mem_listeners _ id

/-! ## Without a subscriber -/

theorem opened_closeSource_of_nil (h : p.opened = []) : p.closeSource.opened = [] := by
  simp [closeSource, h]

/-- Nothing is opened for nobody. -/
theorem unheard_next (hlisteners : p.listeners = []) (hopened : p.opened = [])
    {event : LivePageEvent} (h : ∀ id, event ≠ .subscribe id) :
    (p.next event).listeners = [] ∧ (p.next event).opened = [] := by
  cases event with
  | subscribe id => exact absurd rfl (h id)
  | unsubscribe id =>
    unfold next LivePage.unsubscribe
    simp [hlisteners, hopened]
  | setStreamQuery query =>
    unfold next LivePage.setStreamQuery
    simp only [hlisteners, List.isEmpty_nil, Bool.not_true, Bool.and_false, Bool.false_and,
      Bool.false_eq_true, if_false]
    split
    · exact ⟨rfl, hopened⟩
    · exact ⟨rfl, hopened⟩
  | visibilityChange hidden =>
    unfold next handleVisibilityChange
    simp only [hlisteners, List.isEmpty_nil, if_true]
    split
    · split
      · exact ⟨rfl, opened_closeSource_of_nil hopened⟩
      · exact ⟨rfl, hopened⟩
    · split
      · exact ⟨rfl, hopened⟩
      · exact ⟨rfl, hopened⟩
  | elapse milliseconds => exact ⟨hlisteners, hopened⟩
  | timeout handle =>
    unfold next stopTimeout
    simp only [hlisteners, List.isEmpty_nil, if_true]
    split
    · exact ⟨rfl, opened_closeSource_of_nil hopened⟩
    · exact ⟨hlisteners, hopened⟩
  | tick source malformed =>
    unfold next
    simp only
    split
    · exact ⟨hlisteners, hopened⟩
    · exact ⟨hlisteners, hopened⟩

theorem unheard_run (hlisteners : p.listeners = []) (hopened : p.opened = [])
    {events : List LivePageEvent} (h : ∀ id, .subscribe id ∉ events) :
    (p.run events).opened = [] := by
  induction events generalizing p with
  | nil => exact hopened
  | cons event events ih =>
    have hnext := unheard_next hlisteners hopened fun id heq => h id (heq ▸ List.mem_cons_self)
    exact ih hnext.1 hnext.2 fun id hmem => h id (List.mem_cons_of_mem _ hmem)

/-! ## One right stream -/

theorem Managed.right_iff (h : p.Managed) : p.Right ↔ (p.hidden = true → p.opened = []) := by
  refine ⟨Right.unseen, fun hunseen => ⟨?_, ?_, ?_, hunseen, h.current⟩⟩
  · rcases h.stream with hs | ⟨id, query, hs⟩
    · simp [hs.opened]
    · simp [hs.opened]
  · intro hvisible hlisteners
    obtain ⟨hstarted, hopen⟩ := h.served (h.visible hvisible) hlisteners
    rcases h.stream with hs | ⟨id, query, hs⟩
    · rw [hs.tickerStarted] at hstarted
      contradiction
    · refine ⟨_, hs.opened, streamUrl_perm ?_⟩
      calc query.key = p.openQueryKey.getD [] := hs.openQueryKey.symm
        _ = p.streamQueryKey.getD [] := by rw [hopen]
        _ = p.desired.key := h.streamQueryKey
  · intro hlisteners hlate hcalled
    rcases h.stream with hs | ⟨id, query, hs⟩
    · exact hs.opened
    · obtain ⟨timer, hmem, hdeadline⟩ := h.stopping hlisteners hs.tickerStarted
      have hwaits := hcalled timer hmem
      omega

end Operations

/-- There is one right stream all along, whatever the order of the events, if and only if a page
that is loaded out of sight is not subscribed before the browser reports its visibility: the store
is told of changes, and does not ask. -/
theorem along_right_iff (hidden : Bool) (events : List LivePageEvent) :
    Along next Right (load hidden) events ↔
      (hidden = true → ∀ before id behind, events = before ++ .subscribe id :: behind →
        ∃ visibility, .visibilityChange visibility ∈ before) := by
  constructor
  · rintro halong rfl before id behind rfl
    by_contra! hnone
    -- The stream is opened for the subscriber, and nothing has said that the page is hidden.
    have hbefore := hidden_run (p := load true) hnone
    have hmanaged := (managed_load true).run before
    have hsubscribed := hmanaged.next (.subscribe id)
    have hsilent : ∀ hidden, LivePageEvent.subscribe id ≠ .visibilityChange hidden := nofun
    have hseen := hidden_next (p := (load true).run before) hsilent
    obtain ⟨hstarted, -⟩ := hsubscribed.served (hseen.2.trans hbefore.2)
      (List.ne_nil_of_mem (mem_listeners_subscribeTicks id))
    have hright : (((load true).run before).next (.subscribe id)).Right := by
      rw [← List.singleton_append, ← List.append_assoc] at halong
      have hlast := halong.after
      rwa [List.foldl_append] at hlast
    have hclosed := hright.unseen (hseen.1.trans hbefore.1)
    rcases hsubscribed.stream with hs | ⟨source, query, hs⟩
    · rw [hs.tickerStarted] at hstarted
      contradiction
    · rw [hs.opened] at hclosed
      contradiction
  · intro h
    refine Along.of_prefixes fun before behind hevents => ?_
    refine (((managed_load hidden).run before).right_iff).mpr fun hhidden => ?_
    by_cases hreported : ∃ visibility, .visibilityChange visibility ∈ before
    · -- What the browser reported last is what the store knows.
      have hpaused := paused_run (p := load hidden) (Or.inr hreported)
      exact (((managed_load hidden).run before).stopped_of_paused (hpaused.trans hhidden)).opened
    · push Not at hreported
      have hloaded := (hidden_run (p := load hidden) hreported).1.symm.trans hhidden
      refine unheard_run (p := load hidden) rfl rfl fun id hmem => ?_
      obtain ⟨first, rest, rfl⟩ := List.append_of_mem hmem
      obtain ⟨visibility, hvisibility⟩ := h hloaded first id (rest ++ behind) (by simp [hevents])
      exact hreported visibility (List.mem_append_left _ hvisibility)

/-- A page that is opened in a background tab streams for nobody. -/
theorem backgroundPage_streams : ¬ Along next Right (load true) [.subscribe 0] := by
  intro h
  exact absurd (h.last.unseen rfl) (by decide)

end LivePage

end ZimaScope
