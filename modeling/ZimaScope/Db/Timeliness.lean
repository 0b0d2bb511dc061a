import ZimaScope.Db.Associations
import ZimaScope.Db.Sessions

/-! # Associations over time

An association speaks of the time its observation is valid, and a row of the time
its flow was seen. An ingest brings associations up to date for its own time
only, so rows keep to their time as long as what it rewrites does.
-/

namespace ZimaScope

open TrafficDb Storage

/-- An observation as it is received, on the wall clock. -/
structure ReceivedObservation where
  domain : String
  address : IpAddr
  ifindex : ℤ
  observedMs : ℤ
  expiresMs : ℤ

/-- What a batch observes. -/
def IngestInput.received (input : IngestInput) : List ReceivedObservation :=
  input.batch.domains.map fun observation =>
    { domain := normalizeDomain observation.domain
      address := observation.address
      ifindex := observation.ifindex.toNat
      observedMs := unixMillis (instantToSystem observation.observedAt input.nowInstant input.nowSystem)
      expiresMs := unixMillis (instantToSystem observation.expiresAt input.nowInstant input.nowSystem) }

/-- The observation is of this domain at the row's remote address, on its interface or on any,
and its time and that of the row meet. -/
structure ReceivedObservation.Supports (o : ReceivedObservation) (domain : String) (row : FlowRow) :
    Prop where
  domain : o.domain = domain
  address : o.address = row.remote.address
  ifindex : o.ifindex = row.key.ifindex ∨ o.ifindex = 0
  observed : o.observedMs ≤ row.lastSeenMs
  expires : row.firstSeenMs ≤ o.expiresMs

/-- Every association of a row has an observation of the row's time. -/
def Supported (received : List ReceivedObservation) (t : Tables) : Prop :=
  ∀ id row, t.flows.find id = some row →
    ∀ d ∈ row.domainsJson, ∃ o ∈ received, o.Supports d.domain row

/-- A database, and every observation it was given. -/
structure Chronicle where
  db : TrafficDb
  received : List ReceivedObservation := []

section Chronicles

variable (flowId : FlowKey → UInt64)

def Chronicle.next (s : Chronicle) : SessionEvent → Chronicle
  | .ingest input faults =>
    ⟨(tryIngest flowId input ⟨s.db, faults⟩).2.store, s.received ++ input.received⟩
  | .saveSettings settings nowInstant now faults =>
    ⟨(saveSettings settings nowInstant now ⟨s.db, faults⟩).2.store, s.received⟩
  | .restart flowCapacity => ⟨TrafficDb.restart s.db.tables flowCapacity, s.received⟩

/-- The runs of events that meet a condition, from an empty database. -/
def chronicles (cond : Chronicle → SessionEvent → Prop) : System Chronicle where
  init s := s.db.tables = {} ∧ s.received = []
  step s s' := ∃ event, cond s event ∧ s' = s.next flowId event

/-- An association of a row that is there before and after the event is still there, or the
event is an ingest whose observations outrank it. -/
def Retained (s : Chronicle) (event : SessionEvent) : Prop :=
  ∀ id row row', s.db.tables.flows.find id = some row →
    (s.next flowId event).db.tables.flows.find id = some row' → ∀ d ∈ row.domainsJson,
      (∃ d' ∈ row'.domainsJson, d'.domain = d.domain) ∨
        ∃ input faults, event = .ingest input faults ∧
          Outranked ((observeAll input s.db.tables).candidates row.place.1 row.place.2 input.nowSystem)
            d.domain row'.domainsJson

/-- Rewriting the associations of a row keeps to its time: the domains that come first there
were observed in the time of the row, and none of its associations has expired. -/
structure KeepsTime (received : List ReceivedObservation) (input : IngestInput) (t : Tables)
    (id : UInt64) (row : FlowRow) (place : IpAddr × ℤ) : Prop where
  supported : ∀ c ∈ (observeAll input t).candidates place.1 place.2 input.nowSystem,
    Leading ((observeAll input t).candidates place.1 place.2 input.nowSystem) c →
      ∃ o ∈ received, o.Supports c.1.domain row
  unexpired : ∀ old, t.flows.find id = some old → ∀ d ∈ old.domainsJson, place = old.place ∧
    ∃ c ∈ (observeAll input t).candidates place.1 place.2 input.nowSystem, c.1.domain = d.domain

/-- Every row that an ingest rewrites keeps to its time. -/
def Timely (s : Chronicle) : SessionEvent → Prop
  | .ingest input faults =>
    (∃ recorded c, record input flowId (attached input s.db.interfaces) ⟨attachedDb input s.db, faults⟩ =
        (.ok recorded, c)) →
      ∀ id row place, (expected input flowId s.db).flows.find id = some row →
        rewriteAddress input flowId id (s.db.tables.flows.find id) = some place →
          KeepsTime (s.received ++ input.received) input s.db.tables id row place
  | _ => True

end Chronicles

section Timely

variable {flowId : FlowKey → UInt64} {received : List ReceivedObservation} {s : Chronicle}
  {input : IngestInput} {faults : List (Option String)} {event : SessionEvent} {db : TrafficDb}
  {recorded : Recorded} {c : Conn TrafficDb}

theorem ReceivedObservation.Supports.undomained {o : ReceivedObservation} {domain : String}
    {row row' : FlowRow} (h : o.Supports domain row) (hrow : row.undomained = row'.undomained) :
    o.Supports domain row' := by
  have hundomained : o.Supports domain row.undomained := ⟨h.domain, h.address, h.ifindex, h.observed, h.expires⟩
  rw [hrow] at hundomained
  exact ⟨h.domain, hundomained.address, hundomained.ifindex, hundomained.observed,
    hundomained.expires⟩

/-- A row after the first transaction: its associations are anew those of an address, or the
row is as it was. -/
theorem row_recorded (hrun : record input flowId (attached input db.interfaces)
    ⟨attachedDb input db, faults⟩ = (.ok recorded, c)) {id : UInt64} {row' : FlowRow}
    (hrow : c.store.tables.flows.find id = some row') :
    (∃ place, rewriteAddress input flowId id (db.tables.flows.find id) = some place ∧
      row'.domainsJson = associationsOf input db.tables place ∧
        (expected input flowId db).flows.find id = some row'.undomained) ∨
      ∃ row, db.tables.flows.find id = some row ∧ row'.domainsJson = row.domainsJson ∧
        row'.undomained = row.undomained := by
  have hstores := (ends_record.of_eq hrun rfl).1
  have hassociates := ends_record_associates.of_eq hrun rfl
  have hexpected : (expected input flowId db).flows.find id = some row'.undomained := by
    have hfind := congrArg (fun t => t.find id) hstores.rows
    rw [Tables.find_undomained, hrow] at hfind
    exact hfind.symm
  have htables : (attachedDb input db).tables = db.tables := rfl
  have hdomains := hassociates.rows id
  rw [hrow, htables] at hdomains
  cases hplace : rewriteAddress input flowId id (db.tables.flows.find id) with
  | some place =>
    rw [hplace] at hdomains
    exact Or.inl ⟨place, rfl, Option.some.inj hdomains, hexpected⟩
  | none =>
    right
    rw [hplace] at hdomains
    obtain ⟨row, hold, heq⟩ := Option.map_eq_some_iff.mp hdomains.symm
    refine ⟨row, hold, heq.symm, ?_⟩
    have hnone : sightingsOf flowId id input.batch.flows = [] := by
      unfold rewriteAddress at hplace
      cases hlast : (sightingsOf flowId id input.batch.flows).getLast? with
      | none => exact List.getLast?_eq_none_iff.mp hlast
      | some update =>
        rw [hlast] at hplace
        simp at hplace
    unfold expected at hexpected
    rw [find_storedFlows, hnone, Tables.find_undomained, hold] at hexpected
    exact (Option.some.inj hexpected).symm

theorem supported_recorded (h : Supported s.received s.db.tables)
    (hcond : Timely flowId s (.ingest input faults))
    (hrun : record input flowId (attached input s.db.interfaces) ⟨attachedDb input s.db, faults⟩ =
      (.ok recorded, c)) : Supported (s.received ++ input.received) c.store.tables := by
  intro id row' hrow d hd
  rcases row_recorded hrun hrow with ⟨place, hplace, hdomains, hexpected⟩ | ⟨row, hold, hdomains, hsame⟩
  · rw [hdomains] at hd
    obtain ⟨candidate, hmem, rfl, hleading⟩ := Tables.mem_associateAddress hd
    obtain ⟨o, ho, hsupports⟩ :=
      (hcond ⟨recorded, c, hrun⟩ id _ place hexpected hplace).supported candidate hmem hleading
    exact ⟨o, ho, hsupports.undomained rfl⟩
  · rw [hdomains] at hd
    obtain ⟨o, ho, hsupports⟩ := h id row hold d hd
    exact ⟨o, List.mem_append_left _ ho, hsupports.undomained hsame.symm⟩

theorem supported_next (h : Supported s.received s.db.tables) (hcond : Timely flowId s event) :
    Supported (s.next flowId event).received (s.next flowId event).db.tables := by
  cases event with
  | ingest input faults =>
    rcases tryIngest_cases input flowId s.db faults with ⟨recorded, c, hrun, hrest⟩ | ⟨-, htables⟩
    · exact hrest Tables.stable_flows (supported_recorded h hcond hrun)
    · intro id row hrow d hd
      change (tryIngest flowId input ⟨s.db, faults⟩).2.store.tables.flows.find id = some row at hrow
      rw [htables] at hrow
      obtain ⟨o, ho, hsupports⟩ := h id row hrow d hd
      exact ⟨o, List.mem_append_left _ ho, hsupports⟩
  | saveSettings settings nowInstant now faults =>
    exact keeps_saveSettings Tables.stable_flows ⟨s.db, faults⟩ h
  | restart flowCapacity => exact h

theorem supported_reachable (hr : (chronicles flowId (Timely flowId)).Reachable s) :
    Supported s.received s.db.tables := by
  apply hr.invariant (P := fun s => Supported s.received s.db.tables)
  · rintro s ⟨htables, -⟩ id row hrow
    rw [htables] at hrow
    simp [Table.find_empty] at hrow
  · rintro s _ hs ⟨event, hcond, rfl⟩
    exact supported_next hs hcond

theorem retained_next (hcond : Timely flowId s event) : Retained flowId s event := by
  intro id row row' hrow hrow' d hd
  have hsame : some row = some row' → ∃ d' ∈ row'.domainsJson, d'.domain = d.domain := by
    intro heq
    obtain rfl := Option.some.inj heq
    exact ⟨d, hd, rfl⟩
  cases event with
  | ingest input faults =>
    rcases tryIngest_cases input flowId s.db faults with ⟨recorded, c, hrun, hrest⟩ | ⟨-, htables⟩
    · have hstored : ∀ id row, c.store.tables.flows.find id = some row →
          c.store.tables.flows.find id = some row := fun _ _ h => h
      have hrecorded := hrest Tables.stable_flows hstored id row' hrow'
      rcases row_recorded hrun hrecorded with ⟨place, hplace, hdomains, hexpected⟩ |
        ⟨old, hold, hdomains, -⟩
      · obtain ⟨rfl, candidate, hmem, hdomain⟩ :=
          (hcond ⟨recorded, c, hrun⟩ id _ place hexpected hplace).unexpired row hrow d hd
        rw [hdomains, ← hdomain]
        exact (Tables.associateAddress_covers hmem).imp_right fun h => ⟨input, faults, rfl, h⟩
      · rw [hrow] at hold
        obtain rfl := Option.some.inj hold
        exact Or.inl ⟨d, hdomains ▸ hd, rfl⟩
    · change (tryIngest flowId input ⟨s.db, faults⟩).2.store.tables.flows.find id = some row' at hrow'
      rw [htables] at hrow'
      exact Or.inl (hsame (hrow.symm.trans hrow'))
  | saveSettings settings nowInstant now faults =>
    have hkept : Keeps (saveSettings settings nowInstant now) fun db =>
        ∀ id row', db.tables.flows.find id = some row' → s.db.tables.flows.find id = some row' :=
      keeps_saveSettings Tables.stable_flows
    exact Or.inl (hsame (hrow.symm.trans (hkept ⟨s.db, faults⟩ (fun _ _ h => h) id row' hrow')))
  | restart flowCapacity => exact Or.inl (hsame (hrow.symm.trans hrow'))

end Timely

/-! ## A name that comes later -/

/-- The remote address of the flow is looked up under a name. -/
def lookup (observedAt : Instant) : DomainObservation where
  domain := "example.com"
  address := .v4 (.new 203 0 113 1)
  evidence := .dns
  confidence := .inferred
  clientContext := 2
  observedAt
  expiresAt := observedAt + 60000000000

/-- The flow, and the lookup that came before its last packet. -/
def lookedUp : IngestInput :=
  { oneUpdate with batch := { oneUpdate.batch with domains := [lookup 4] } }

def freshChronicle : Chronicle := ⟨TrafficDb.restart {} 65536, []⟩

/-- The flow ends. -/
def endedFlow : IngestInput :=
  lanInterval {} [lanUpdate ⟨3, 300⟩ ⟨3, 300⟩ (.ended .tcpFin)]

/-- An hour later its address is looked up. -/
def laterLookup : IngestInput :=
  { lanInterval {} [] with
    batch := { (lanInterval {} []).batch with domains := [lookup 3600000000009] }
    nowInstant := 3600000000010
    nowSystem := 1700003600123456789 }

end ZimaScope
