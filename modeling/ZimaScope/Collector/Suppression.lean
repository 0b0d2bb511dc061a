import ZimaScope.Collector.Candidates
import ZimaScope.Collector.Yields

/-! # Suppressed observations

A run of the decoder is one of offers and purges: its table says for each key when the
last observation emitted for it expires.
-/

namespace ZimaScope

namespace DomainDecoder

/-- What an event is to the table. -/
def Event.offers : Event → List (Suppression.Event DomainObservation Instant)
  | decode sample clock now => (yields sample (sampleTime sample clock now)).map (.offer now)
  | purgeExpired now => [.purge now]

/-- The table of a decoder, and what has been emitted. -/
def Run.state (s : Run) : Suppression.State DomainDedupeKey DomainObservation Instant :=
  ⟨fun key => AList.lookup key s.decoder.dedupe, s.emitted⟩

section State

variable {now : Instant}

abbrev suppress (s : Suppression.State DomainDedupeKey DomainObservation Instant) :
    Suppression.Event DomainObservation Instant →
      Suppression.State DomainDedupeKey DomainObservation Instant :=
  Suppression.next dedupeKey DomainObservation.expiresAt s

/-- The run with what one call has appended so far. -/
def Run.extend (s : Run) (now : Instant) (progress : DomainDecoder × List DomainObservation) : Run :=
  ⟨progress.1, s.emitted ++ progress.2.map fun o => (now, o)⟩

theorem state_offer (s : Run) (progress : DomainDecoder × List DomainObservation)
    (o : DomainObservation) : (s.extend now (offer now progress o)).state =
      suppress (s.extend now progress).state (.offer now o) := by
  by_cases h : (AList.lookup (dedupeKey o) progress.1.dedupe).any (fun e => now < e) = true
  · have hoffer : offer now progress o = progress := if_pos h
    have hsuppress : suppress (s.extend now progress).state (.offer now o) =
        (s.extend now progress).state := if_pos h
    rw [hoffer, hsuppress]
  · have hoffer : offer now progress o =
        (⟨progress.1.dedupe.insert (dedupeKey o) o.expiresAt⟩, progress.2 ++ [o]) := if_neg h
    have hsuppress : suppress (s.extend now progress).state (.offer now o) =
        ⟨Function.update (s.extend now progress).state.table (dedupeKey o) (some o.expiresAt),
          (s.extend now progress).state.taken ++ [(now, o)]⟩ := if_neg h
    have htable : (fun key => AList.lookup key (progress.1.dedupe.insert (dedupeKey o) o.expiresAt)) =
        Function.update (fun key => AList.lookup key progress.1.dedupe) (dedupeKey o)
          (some o.expiresAt) := by
      funext key
      by_cases hkey : key = dedupeKey o
      · rw [hkey, Function.update_self, AList.lookup_insert]
      · rw [Function.update_of_ne hkey, AList.lookup_insert_ne hkey]
    rw [hoffer, hsuppress]
    simp [Run.state, Run.extend, htable]

/-- One step of the decoder. -/
theorem state_next (s : Run) (event : Event) :
    (s.next event).state = event.offers.foldl suppress s.state := by
  cases event with
  | decode sample clock now =>
    have hloop : ∀ (observations : List DomainObservation)
        (progress : DomainDecoder × List DomainObservation),
        (s.extend now (observations.foldl (offer now) progress)).state =
          (observations.map (Suppression.Event.offer now)).foldl suppress
            (s.extend now progress).state := by
      intro observations
      induction observations with
      | nil => exact fun _ => rfl
      | cons o observations ih =>
        intro progress
        rw [List.foldl_cons, List.map_cons, List.foldl_cons, ih, state_offer]
    have hnext : s.next (.decode sample clock now) =
        s.extend now (DomainDecoder.decode sample now clock (s.decoder, [])).2 := rfl
    have hstart : s.extend now (s.decoder, []) = s := by simp [Run.extend]
    rw [hnext, decode_eq, hloop, hstart]
    rfl
  | purgeExpired now =>
    have htable : ∀ key, AList.lookup key (s.decoder.purgeExpired now).dedupe =
        (AList.lookup key s.decoder.dedupe).filter fun e => now < e := fun key =>
      HashMap.lookup_retain _ _ key
    simp only [Run.next, Run.state, htable]
    rfl

theorem state_run (events : List Event) :
    (run events).state = (events.flatMap Event.offers).foldl suppress {} := by
  have hloop : ∀ s : Run, (events.foldl Run.next s).state =
      (events.flatMap Event.offers).foldl suppress s.state := by
    induction events with
    | nil => exact fun _ => rfl
    | cons event events ih =>
      intro s
      rw [List.foldl_cons, List.flatMap_cons, List.foldl_append, ih, state_next]
  exact hloop {}

end State

section Run

variable {events : List Event}

theorem time_offers {event : Event} {offer : Suppression.Event DomainObservation Instant}
    (h : offer ∈ event.offers) : offer.time = event.time := by
  cases event with
  | decode sample clock now =>
    obtain ⟨o, -, rfl⟩ := List.mem_map.mp h
    rfl
  | purgeExpired now =>
    obtain rfl := List.mem_singleton.mp h
    rfl

/-- The offers of a run come in the order of time. -/
theorem offers_sorted (htimes : (events.map Event.time).Pairwise (· ≤ ·)) :
    ((events.flatMap Event.offers).map Suppression.Event.time).Pairwise (· ≤ ·) := by
  rw [List.pairwise_map] at htimes ⊢
  rw [List.pairwise_flatMap]
  constructor
  · intro event _
    apply List.pairwise_of_forall_mem_list
    intro a ha b hb
    rw [time_offers ha, time_offers hb]
  · apply htimes.imp
    intro event event' hle a ha b hb
    rwa [time_offers ha, time_offers hb]

theorem offers_filter : (events.filter Event.isDecode).flatMap Event.offers =
    (events.flatMap Event.offers).filter Suppression.Event.isOffer := by
  induction events with
  | nil => rfl
  | cons event events ih =>
    rw [List.flatMap_cons, List.filter_append, ← ih]
    cases event with
    | decode sample clock now =>
      have hall : (Event.decode sample clock now).offers.filter Suppression.Event.isOffer =
          (Event.decode sample clock now).offers := by
        simp [Event.offers, List.filter_map, Suppression.Event.isOffer, Function.comp_def]
      rw [hall]
      rfl
    | purgeExpired now => rfl

/-- An observation is emitted again only when the one emitted before it has expired, whatever a sample
yields is covered by one that has not expired unless the sample was too old, and purging does not change
what is emitted. -/
structure Deduplicates (events : List Event) : Prop where
  spaced : (run events).emitted.Pairwise fun a b => dedupeKey a.2 = dedupeKey b.2 → a.2.expiresAt ≤ b.1
  covered : ∀ before sample clock now after, events = before ++ .decode sample clock now :: after →
    ∀ o ∈ yields sample (sampleTime sample clock now),
      (∃ a ∈ (run (before ++ [.decode sample clock now])).emitted,
        dedupeKey a.2 = dedupeKey o ∧ now < a.2.expiresAt) ∨ o.expiresAt ≤ now
  purged : (run events).emitted = (run (events.filter Event.isDecode)).emitted

theorem emitted_run (events : List Event) :
    (run events).emitted = ((events.flatMap Event.offers).foldl suppress {}).taken :=
  congrArg Suppression.State.taken (state_run events)

/-- While time does not go backwards, suppression neither repeats nor hides evidence. -/
theorem deduplicates (htimes : (events.map Event.time).Pairwise (· ≤ ·)) : Deduplicates events := by
  constructor
  · rw [emitted_run]
    exact Suppression.spaced_run (offers_sorted htimes)
  · rintro before sample clock now after rfl o ho
    obtain ⟨earlier, later, hyields⟩ := List.append_of_mem ho
    have hoffers : (before ++ [Event.decode sample clock now]).flatMap Event.offers =
        (before.flatMap Event.offers ++ earlier.map (.offer now)) ++
          .offer now o :: later.map (.offer now) := by
      simp [Event.offers, hyields]
    have hprefix : ((before ++ [Event.decode sample clock now]).map Event.time).Pairwise (· ≤ ·) := by
      apply List.Pairwise.sublist _ htimes
      simp
    have hsorted := offers_sorted hprefix
    rw [hoffers] at hsorted
    rw [emitted_run, hoffers]
    exact Suppression.covered_run hsorted
  · rw [emitted_run, emitted_run, offers_filter]
    exact Suppression.taken_filter (offers_sorted htimes)

/-- A request that is sampled again after a minute. -/
def repeatedRequest : List Event :=
  (httpSample "GET").toList.flatMap fun sample =>
    [.decode sample {} 0, .purgeExpired (fromSecs 60), .decode sample {} (fromSecs 60)]

theorem deduplicates_repeated : (run repeatedRequest).emitted.length = 1 ∧
    Deduplicates repeatedRequest := by
  constructor
  · decide +kernel
  · exact deduplicates (by decide +kernel)

end Run

end DomainDecoder

end ZimaScope
