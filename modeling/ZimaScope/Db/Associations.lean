import Mathlib.Data.String.Basic
import ZimaScope.Db.Invariants

/-! # Associations of an interval

Which domains an address gets, and what the first transaction makes of the
associations of each row: a row that an update or a new observation reaches gets
those of its address anew, and no other row changes its own.
-/

namespace ZimaScope

open TrafficDb Storage

/-! ## Candidates -/

section Candidates

variable {domains : List DomainRefDto} {candidates : List Candidate} {d : DomainRefDto} {c : Candidate}

instance : Std.Total Candidate.before where
  total a b := by
    unfold Candidate.before
    have hdomain := le_total a.1.domain b.1.domain
    rcases lt_trichotomy (evidenceRank a.1.evidence) (evidenceRank b.1.evidence) with h | h | h <;>
      rcases lt_trichotomy a.2.lastObservedMs b.2.lastObservedMs with h' | h' | h' <;> simp_all

instance : IsTrans Candidate Candidate.before where
  trans a b c hab hbc := by
    unfold Candidate.before at *
    rcases hab with hab | ⟨hab, hab' | ⟨hab', hdomain⟩⟩ <;>
      rcases hbc with hbc | ⟨hbc, hbc' | ⟨hbc', hdomain'⟩⟩
    · exact Or.inl (hbc.trans hab)
    · exact Or.inl (hbc ▸ hab)
    · exact Or.inl (hbc ▸ hab)
    · exact Or.inl (hab ▸ hbc)
    · exact Or.inr ⟨hbc.trans hab, Or.inl (hbc'.trans hab')⟩
    · exact Or.inr ⟨hbc.trans hab, Or.inl (hbc' ▸ hab')⟩
    · exact Or.inl (hab ▸ hbc)
    · exact Or.inr ⟨hbc.trans hab, Or.inl (hab' ▸ hbc')⟩
    · exact Or.inr ⟨hbc.trans hab, Or.inr ⟨hbc'.trans hab', hdomain.trans hdomain'⟩⟩

/-- The association a candidate makes. -/
def Candidate.association (c : Candidate) : DomainRefDto :=
  ⟨c.1.domain, c.1.evidence, c.2.confidence⟩

theorem subset_firstDomains : domains ⊆ firstDomains domains candidates := by
  induction candidates generalizing domains with
  | nil => exact List.Subset.refl _
  | cons c candidates ih =>
    unfold firstDomains
    split
    · exact ih
    · simp only
      split
      · exact List.subset_append_left _ _
      · exact fun d hd => ih (List.mem_append_left _ hd)

theorem Candidate.domain_eq {a b : Candidate} (hab : a.before b) (hba : b.before a) :
    a.1.domain = b.1.domain := by
  unfold Candidate.before at hab hba
  rcases hab with hab | ⟨hrank, hab | ⟨htime, hab⟩⟩
  · rcases hba with hba | ⟨hba, -⟩ <;> omega
  · rcases hba with hba | ⟨-, hba | ⟨hba, -⟩⟩ <;> omega
  · rcases hba with hba | ⟨-, hba | ⟨-, hba⟩⟩
    · omega
    · omega
    · exact le_antisymm hab hba

/-- Fewer than eight other domains have candidates that come before this one. -/
def Leading (candidates : List Candidate) (c : Candidate) : Prop :=
  ∃ known : List String, known.length < maxDomainCandidates ∧
    ∀ o ∈ candidates, o.before c → o.1.domain = c.1.domain ∨ o.1.domain ∈ known

/-- An association is there already, or one of a candidate that fewer than eight domains
come before, those that are there among them. -/
theorem mem_firstDomains (hsorted : candidates.Pairwise Candidate.before)
    (hlength : domains.length < maxDomainCandidates) (h : d ∈ firstDomains domains candidates) :
    d ∈ domains ∨ ∃ c ∈ candidates, d = Candidate.association c ∧ ∃ known : List String,
      known.length < maxDomainCandidates ∧ domains.map DomainRefDto.domain ⊆ known ∧
        ∀ o ∈ candidates, o.before c → o.1.domain = c.1.domain ∨ o.1.domain ∈ known := by
  induction candidates generalizing domains with
  | nil => exact Or.inl h
  | cons first candidates ih =>
    obtain ⟨hfirst, hrest⟩ := List.pairwise_cons.mp hsorted
    have hlast : d ∈ domains ++ [Candidate.association first] → d ∈ domains ∨
        ∃ c ∈ first :: candidates, d = Candidate.association c ∧ ∃ known : List String,
          known.length < maxDomainCandidates ∧ domains.map DomainRefDto.domain ⊆ known ∧
            ∀ o ∈ first :: candidates, o.before c → o.1.domain = c.1.domain ∨ o.1.domain ∈ known := by
      intro hd
      rcases List.mem_append.mp hd with hd | hd
      · exact Or.inl hd
      · refine Or.inr ⟨first, List.mem_cons_self, List.mem_singleton.mp hd,
          domains.map DomainRefDto.domain, by rwa [List.length_map], List.Subset.refl _, ?_⟩
        intro o ho hbefore
        rcases List.mem_cons.mp ho with rfl | ho
        · exact Or.inl rfl
        · exact Or.inl (Candidate.domain_eq hbefore (hfirst o ho))
    unfold firstDomains at h
    split at h
    · next hany =>
      rcases ih hrest hlength h with hd | ⟨c, hc, hd, known, hshort, hsub, hknown⟩
      · exact Or.inl hd
      · refine Or.inr ⟨c, List.mem_cons_of_mem _ hc, hd, known, hshort, hsub, ?_⟩
        intro o ho hbefore
        rcases List.mem_cons.mp ho with rfl | ho
        · obtain ⟨other, hother, heq⟩ := List.any_eq_true.mp hany
          exact Or.inr (hsub (List.mem_map.mpr ⟨other, hother, by simpa using heq⟩))
        · exact hknown o ho hbefore
    · simp only at h
      split at h
      · exact hlast h
      · next hmore =>
        rcases ih hrest (Nat.lt_of_not_le hmore) h with hd | ⟨c, hc, hd, known, hshort, hsub, hknown⟩
        · exact hlast hd
        · rw [List.map_append, List.append_subset] at hsub
          refine Or.inr ⟨c, List.mem_cons_of_mem _ hc, hd, known, hshort, hsub.1, ?_⟩
          intro o ho hbefore
          rcases List.mem_cons.mp ho with rfl | ho
          · exact Or.inr (hsub.2 (List.mem_singleton.mpr rfl))
          · exact hknown o ho hbefore

theorem nodup_firstDomains (h : (domains.map DomainRefDto.domain).Nodup) :
    ((firstDomains domains candidates).map DomainRefDto.domain).Nodup := by
  induction candidates generalizing domains with
  | nil => exact h
  | cons c candidates ih =>
    unfold firstDomains
    split
    · exact ih h
    · next hany =>
      have hnew : ((domains ++ [Candidate.association c]).map DomainRefDto.domain).Nodup := by
        rw [List.map_append, List.nodup_append]
        refine ⟨h, List.nodup_singleton _, ?_⟩
        intro name hname other hother heq
        obtain ⟨known, hknown, rfl⟩ := List.mem_map.mp hname
        rw [List.map_singleton, List.mem_singleton] at hother
        exact hany (List.any_eq_true.mpr ⟨known, hknown, by simpa [Candidate.association] using heq.trans hother⟩)
      simp only
      split
      · exact hnew
      · exact ih hnew

/-- A candidate's domain is taken, or there are eight others before it. -/
theorem firstDomains_covers (hsorted : candidates.Pairwise Candidate.before)
    (hlength : domains.length < maxDomainCandidates) (hc : c ∈ candidates) :
    (∃ d ∈ firstDomains domains candidates, d.domain = c.1.domain) ∨
      (firstDomains domains candidates).length = maxDomainCandidates ∧
        ∀ d ∈ firstDomains domains candidates, d ∈ domains ∨
          ∃ o ∈ candidates, o.1.domain = d.domain ∧ o.before c := by
  induction candidates generalizing domains with
  | nil => simp at hc
  | cons first candidates ih =>
    obtain ⟨hfirst, hrest⟩ := List.pairwise_cons.mp hsorted
    have hmono : ∀ {ds ds' : List DomainRefDto}, (∀ d ∈ ds', d ∈ ds ∨ d = first.association) →
        c ∈ candidates →
        ((∃ d ∈ firstDomains ds' candidates, d.domain = c.1.domain) ∨
          (firstDomains ds' candidates).length = maxDomainCandidates ∧
            ∀ d ∈ firstDomains ds' candidates, d ∈ ds' ∨
              ∃ o ∈ candidates, o.1.domain = d.domain ∧ o.before c) →
        (∃ d ∈ firstDomains ds' candidates, d.domain = c.1.domain) ∨
          (firstDomains ds' candidates).length = maxDomainCandidates ∧
            ∀ d ∈ firstDomains ds' candidates, d ∈ ds ∨
              ∃ o ∈ first :: candidates, o.1.domain = d.domain ∧ o.before c := by
      intro ds ds' hds hmem h
      refine h.imp_right fun ⟨hlength, hd⟩ => ⟨hlength, fun d hmemd => ?_⟩
      rcases hd d hmemd with hold | ⟨o, ho, hdomain, hbefore⟩
      · rcases hds d hold with hold | rfl
        · exact Or.inl hold
        · exact Or.inr ⟨first, List.mem_cons_self, rfl, hfirst c hmem⟩
      · exact Or.inr ⟨o, List.mem_cons_of_mem _ ho, hdomain, hbefore⟩
    have hnew : ∀ d ∈ domains ++ [first.association], d ∈ domains ∨ d = first.association := by
      intro d hd
      exact (List.mem_append.mp hd).imp_right List.mem_singleton.mp
    unfold firstDomains
    split
    · next hany =>
      rcases List.mem_cons.mp hc with rfl | hmem
      · obtain ⟨known, hknown, hdomain⟩ := List.any_eq_true.mp hany
        exact Or.inl ⟨known, subset_firstDomains hknown, by simpa using hdomain⟩
      · exact hmono (fun d hd => Or.inl hd) hmem (ih hrest hlength hmem)
    · simp only
      split
      · next hfull =>
        rcases List.mem_cons.mp hc with rfl | hmem
        · exact Or.inl ⟨_, List.mem_append_right _ (List.mem_singleton.mpr rfl), rfl⟩
        · right
          rw [List.length_append, List.length_singleton] at hfull ⊢
          refine ⟨by omega, fun d hd => (hnew d hd).imp_right ?_⟩
          rintro rfl
          exact ⟨first, List.mem_cons_self, rfl, hfirst c hmem⟩
      · next hfull =>
        rcases List.mem_cons.mp hc with rfl | hmem
        · exact Or.inl ⟨_, subset_firstDomains (List.mem_append_right _ (List.mem_singleton.mpr rfl)), rfl⟩
        · exact hmono hnew hmem (ih hrest (Nat.lt_of_not_le hfull) hmem)

/-- Eight associations, none of this domain, that outrank every candidate of it. -/
structure Outranked (candidates : List Candidate) (domain : String)
    (associations : List DomainRefDto) : Prop where
  length : associations.length = maxDomainCandidates
  nodup : (associations.map DomainRefDto.domain).Nodup
  others : ∀ d ∈ associations, d.domain ≠ domain
  candidate : ∃ c ∈ candidates, c.1.domain = domain
  before : ∀ c ∈ candidates, c.1.domain = domain →
    ∀ d ∈ associations, ∃ o ∈ candidates, o.1.domain = d.domain ∧ o.before c

end Candidates

namespace Tables

variable {t : Tables} {address : IpAddr} {ifindex : ℤ} {now : SystemTime} {d : DomainRefDto}

/-- The observations of an address on an interface that have not expired. -/
def candidates (t : Tables) (address : IpAddr) (ifindex : ℤ) (now : SystemTime) : List Candidate :=
  t.observations.rows.filter fun r =>
    r.1.address = address ∧ (r.1.ifindex = ifindex ∨ r.1.ifindex = 0) ∧
      unixMillis now < r.2.expiresAtMs

theorem associateAddress_eq : t.associateAddress address ifindex now =
    firstDomains [] ((t.candidates address ifindex now).insertionSort Candidate.before) := rfl

/-- Every association is that of a candidate fewer than eight other domains come before. -/
theorem mem_associateAddress (h : d ∈ t.associateAddress address ifindex now) :
    ∃ c ∈ t.candidates address ifindex now,
      d = c.association ∧ Leading (t.candidates address ifindex now) c := by
  rw [associateAddress_eq] at h
  rcases mem_firstDomains (List.pairwise_insertionSort _ _) (by decide) h with
    hd | ⟨c, hc, hd, known, hshort, -, hknown⟩
  · simp at hd
  · simp only [List.mem_insertionSort] at hc hknown
    exact ⟨c, hc, hd, known, hshort, hknown⟩

/-- The domain of a candidate is associated, or outranked. -/
theorem associateAddress_covers {c : Candidate} (hc : c ∈ t.candidates address ifindex now) :
    (∃ d ∈ t.associateAddress address ifindex now, d.domain = c.1.domain) ∨
      Outranked (t.candidates address ifindex now) c.1.domain
        (t.associateAddress address ifindex now) := by
  by_cases htaken : ∃ d ∈ t.associateAddress address ifindex now, d.domain = c.1.domain
  · exact Or.inl htaken
  · right
    have hcovers : ∀ o ∈ t.candidates address ifindex now, o.1.domain = c.1.domain →
        (t.associateAddress address ifindex now).length = maxDomainCandidates ∧
          ∀ d ∈ t.associateAddress address ifindex now,
            ∃ o' ∈ t.candidates address ifindex now, o'.1.domain = d.domain ∧ o'.before o := by
      intro o ho hdomain
      rcases firstDomains_covers (List.pairwise_insertionSort Candidate.before _)
        (show ([] : List DomainRefDto).length < maxDomainCandidates by decide)
        ((List.mem_insertionSort _).mpr ho) with hd | ⟨hlength, hd⟩
      · rw [hdomain] at hd
        exact absurd hd htaken
      · refine ⟨hlength, fun d hmem => ?_⟩
        rcases hd d hmem with hnone | ⟨o', ho', hbefore⟩
        · simp at hnone
        · exact ⟨o', (List.mem_insertionSort _).mp ho', hbefore⟩
    exact {
      length := (hcovers c hc rfl).1
      nodup := nodup_firstDomains List.nodup_nil
      others := fun d hd heq => htaken ⟨d, hd, heq⟩
      candidate := ⟨c, hc, rfl⟩
      before := fun o ho hdomain => (hcovers o ho hdomain).2 }

end Tables

/-! ## The first transaction -/

section Record

variable (input : IngestInput) (flowId : FlowKey → UInt64)

/-- The row an observation is stored as, if it is one to store. -/
def observationRow (observation : DomainObservation) : Option Candidate :=
  let observedAt := instantToSystem observation.observedAt input.nowInstant input.nowSystem
  let expiresAt := instantToSystem observation.expiresAt input.nowInstant input.nowSystem
  let domain := normalizeDomain observation.domain
  if expiresAt ≤ input.nowSystem ∨ domain = "" then none
  else some (⟨domain, observation.address, observation.evidence, observation.ifindex.toNat⟩,
    ⟨observation.confidence, unixMillis observedAt, unixMillis expiresAt⟩)

def Tables.observe (t : Tables) (observed : List Candidate) : Tables :=
  observed.foldl (fun t c => t.storeObservation c.1 c.2) t

/-- The tables once the observations of the batch are stored. -/
def observeAll (t : Tables) : Tables :=
  t.observe (input.batch.domains.filterMap (observationRow input))

/-- The remote address of a flow, and its interface. -/
def FlowKey.place (key : FlowKey) : IpAddr × ℤ := ((remoteEndpoint key).address, key.ifindex)

/-- What the row says of them. -/
def FlowRow.place (row : FlowRow) : IpAddr × ℤ := (row.remote.address, row.key.ifindex)

/-- An observation of this address on this interface is stored. -/
def Changed (place : IpAddr × ℤ) : Prop :=
  ∃ c ∈ input.batch.domains.filterMap (observationRow input), (c.1.address, c.1.ifindex) = place

instance (place : IpAddr × ℤ) : Decidable (Changed input place) :=
  inferInstanceAs (Decidable (∃ c ∈ _, _))

/-- The associations of an address and interface in this interval. -/
def associationsOf (t : Tables) (place : IpAddr × ℤ) : List DomainRefDto :=
  (observeAll input t).associateAddress place.1 place.2 input.nowSystem

/-- Where the associations a flow gets anew come from: the last update of its id decides, and
without one the address of its row, if an observation of it is stored. -/
def rewriteAddress (id : UInt64) (row : Option FlowRow) : Option (IpAddr × ℤ) :=
  match (sightingsOf flowId id input.batch.flows).getLast? with
  | some update => some update.key.place
  | none => (row.map FlowRow.place).filter fun place => Changed input place

/-- What becomes of the associations of each flow. -/
structure Associates (t t' : Tables) : Prop where
  observations : t'.observations = (observeAll input t).observations
  rows : ∀ id, (t'.flows.find id).map FlowRow.domainsJson =
    match rewriteAddress input flowId id (t.flows.find id) with
    | some place => some (associationsOf input t place)
    | none => (t.flows.find id).map FlowRow.domainsJson

variable {input flowId} {db : TrafficDb}

theorem storeObservation_eq {observation : DomainObservation} :
    storeObservation input observation = match observationRow input observation with
      | none => pure false
      | some c => execute (fun t => t.storeObservation c.1 c.2) >>= fun _ => pure true := by
  unfold storeObservation observationRow
  simp only
  split <;> rfl

variable (db) in
/-- Storing the observations of the batch. -/
theorem ends_observe : Ends (storeObservations input) (fun changed s =>
    s = { db with tables := observeAll input db.tables } ∧
      ∀ place, place ∈ changed ↔ Changed input place) db := by
  unfold storeObservations
  refine .foldlM (I := fun done (changed : List (IpAddr × ℤ)) (s : TrafficDb) =>
    s = { db with tables := db.tables.observe (done.filterMap (observationRow input)) } ∧
    ∀ place, place ∈ changed ↔ ∃ c ∈ done.filterMap (observationRow input),
      (c.1.address, c.1.ifindex) = place) ?_ ⟨rfl, fun place => ?_⟩
  swap
  · simp
  intro done observation later changed s _ ⟨hs, hchanged⟩
  subst hs
  rw [storeObservation_eq]
  unfold Tables.observe at *
  rw [List.filterMap_append, List.foldl_append]
  cases hrow : observationRow input observation with
  | none =>
    refine .bind (.pure (.pure ⟨?_, ?_⟩))
    · simp [hrow]
    · simpa [hrow] using hchanged
  | some c =>
    refine .bind (.bind (ends_execute (.pure (.pure ⟨?_, ?_⟩))))
    · simp [hrow]
    · intro place
      have haddress : (observation.address, (observation.ifindex.toNat : ℤ)) =
          (c.1.address, c.1.ifindex) := by
        unfold observationRow at hrow
        simp only at hrow
        split at hrow
        · simp at hrow
        · obtain rfl := Option.some.inj hrow
          rfl
      simp only [if_true, List.mem_insert_iff, hchanged, List.mem_append, haddress]
      simp [hrow, or_and_right, exists_or, eq_comm, or_comm]

theorem flows_observe {t : Tables} {observed : List Candidate} : (t.observe observed).flows = t.flows := by
  unfold Tables.observe
  induction observed generalizing t with
  | nil => rfl
  | cons c observed ih => exact ih

theorem observations_updateFlows {t : Tables} {set : FlowRow → FlowRow}
    {cond : UInt64 → FlowRow → Bool} : (t.updateFlows set cond).observations = t.observations :=
  Tables.frame_foldl (g := Tables.observations) (f := fun t id row => t.onUpdate id row (set row))
    fun _ _ _ => rfl

theorem observations_insertFlow {t : Tables} {id : UInt64} {row : FlowRow} :
    (t.insertFlow id row).observations = t.observations := by
  cases h : t.flows.find id with
  | none => rw [Tables.insertFlow_of_none h]; rfl
  | some old => rw [Tables.insertFlow_of_some h]; rfl

/-- The associations of these addresses anew. -/
def FlowRow.reassociate (associations : IpAddr × ℤ → List DomainRefDto) (places : List (IpAddr × ℤ))
    (row : FlowRow) : FlowRow :=
  if row.place ∈ places then { row with domainsJson := associations row.place } else row

theorem FlowRow.reassociate_append {associations : IpAddr × ℤ → List DomainRefDto}
    {places : List (IpAddr × ℤ)} {place : IpAddr × ℤ} {row : FlowRow} :
    row.reassociate associations (places ++ [place]) =
      if (row.reassociate associations places).remote.address = place.1 &&
          (row.reassociate associations places).key.ifindex = place.2 then
        { row.reassociate associations places with domainsJson := associations place }
      else row.reassociate associations places := by
  have hplace : (row.reassociate associations places).place = row.place := by
    unfold reassociate
    split <;> rfl
  have hcond : ((row.reassociate associations places).remote.address = place.1 &&
      (row.reassociate associations places).key.ifindex = place.2) =
      decide (row.place = place) := by
    rw [← hplace, ← Bool.decide_and]
    apply decide_eq_decide.mpr
    rw [Prod.ext_iff]
    exact Iff.rfl
  rw [hcond]
  by_cases heq : row.place = place
  · subst heq
    simp only [decide_true, if_true]
    unfold reassociate
    rw [if_pos (List.mem_append_right _ (List.mem_singleton.mpr rfl))]
    split <;> rfl
  · rw [decide_eq_false heq, if_neg Bool.false_ne_true]
    have hmem : row.place ∈ places ++ [place] ↔ row.place ∈ places := by simp [heq]
    unfold reassociate
    simp only [hmem]

/-- Bringing the flows at the changed addresses up to date. -/
theorem ends_associate {changed : List (IpAddr × ℤ)} :
    Ends (changed.foldlM (associateFlows input) []) (fun _ (s : TrafficDb) =>
      s.tables.observations = db.tables.observations ∧
        s.tables.flows = db.tables.flows.mapRows fun _ row => row.reassociate (fun place =>
          db.tables.associateAddress place.1 place.2 input.nowSystem) changed) db := by
  refine .foldlM (I := fun done _ (s : TrafficDb) => s.tables.observations = db.tables.observations ∧
    s.tables.flows = db.tables.flows.mapRows fun _ row => row.reassociate (fun place =>
      db.tables.associateAddress place.1 place.2 input.nowSystem) done) ?_ ⟨rfl, ?_⟩
  · rintro done place later touched s - ⟨hobservations, hflows⟩
    refine .bind (ends_select (.bind (ends_execute (.bind (ends_select (.pure ⟨?_, ?_⟩))))))
    · exact observations_updateFlows.trans hobservations
    · have hassociate : s.tables.associateAddress place.1 place.2 input.nowSystem =
          db.tables.associateAddress place.1 place.2 input.nowSystem := by
        unfold Tables.associateAddress
        rw [hobservations]
      simp only [Tables.updateDomains, Tables.flows_updateFlows]
      rw [hflows, Table.mapRows_mapRows, hassociate]
      exact Table.mapRows_congr _ fun id row => FlowRow.reassociate_append.symm
  · ext1
    exact (List.map_id' _).symm

/-- These updates are stored with the associations of their addresses. -/
structure Updates (input : IngestInput) (flowId : FlowKey → UInt64) (flows : List Sighting)
    (t t' : Tables) : Prop where
  observations : t'.observations = t.observations
  rows : ∀ id, (t'.flows.find id).map FlowRow.domainsJson =
    match (sightingsOf flowId id flows).getLast? with
    | some update => some (t.associateAddress update.key.place.1 update.key.place.2 input.nowSystem)
    | none => (t.flows.find id).map FlowRow.domainsJson

/-- The cache holds what is stored. -/
def Cached (input : IngestInput) (t : Tables) (cache : DomainsCache) : Prop :=
  ∀ place domains, AList.lookup place cache = some domains →
    domains = t.associateAddress place.1 place.2 input.nowSystem

theorem ends_cachedDomains {t : Tables} {key : FlowKey} {cache : DomainsCache}
    (h : db.tables.observations = t.observations) (hcache : Cached input t cache) :
    Ends (cachedDomains input key cache) (fun result s => s = db ∧
      result.1 = t.associateAddress key.place.1 key.place.2 input.nowSystem ∧
        Cached input t result.2) db := by
  unfold cachedDomains
  simp only
  split
  · next domains hlookup => exact .pure ⟨rfl, hcache _ _ hlookup, hcache⟩
  · have hassociate : db.tables.associateAddress (remoteEndpoint key).address key.ifindex
        input.nowSystem = t.associateAddress key.place.1 key.place.2 input.nowSystem := by
      unfold Tables.associateAddress
      rw [h]
      rfl
    refine .bind (ends_select (.pure ⟨rfl, hassociate, ?_⟩))
    intro place domains hlookup
    by_cases hplace : place = key.place
    · subst hplace
      unfold FlowKey.place at hlookup
      rw [AList.lookup_insert] at hlookup
      exact (Option.some.inj hlookup).symm.trans hassociate
    · rw [AList.lookup_insert_ne (by exact hplace)] at hlookup
      exact hcache _ _ hlookup

theorem Updates.insert {flows : List Sighting} {t t' : Tables} {update : Sighting}
    {interfaces : HashMap UInt32 String} {domains : List DomainRefDto}
    (h : Updates input flowId flows t t')
    (hdomains : domains = t.associateAddress update.key.place.1 update.key.place.2 input.nowSystem) :
    Updates input flowId (flows ++ [update]) t (t'.insertFlow (flowId update.key)
      (update.flowRow input.nowInstant input.nowSystem
        (AList.lookup update.key.interfaceIndex.val interfaces) domains)) := by
  refine ⟨observations_insertFlow.trans h.observations, fun id => ?_⟩
  unfold sightingsOf
  rw [Tables.flows_insertFlow, Table.find_upsert, List.filter_append, List.getLast?_append]
  by_cases hid : id = flowId update.key
  · subst hid
    have hrow : ∀ old : Option FlowRow, (old.elim (update.flowRow input.nowInstant input.nowSystem
        (AList.lookup update.key.interfaceIndex.val interfaces) domains) fun old =>
          old.onConflict (update.flowRow input.nowInstant input.nowSystem
            (AList.lookup update.key.interfaceIndex.val interfaces) domains)).domainsJson = domains := by
      rintro (_ | old) <;> rfl
    rw [if_pos rfl, Option.map_some, hrow, hdomains]
    simp
  · rw [if_neg hid, h.rows id]
    unfold sightingsOf
    simp [Ne.symm hid]

/-- Storing the updates of the batch. -/
theorem ends_updates {interfaces : HashMap UInt32 String} {touched : List UInt64} :
    Ends (input.batch.flows.foldlM (recordFlow input flowId interfaces) (touched, ∅))
      (fun _ s => Updates input flowId input.batch.flows db.tables s.tables) db := by
  refine Ends.mono (Ends.foldlM (I := fun done (progress : List UInt64 × DomainsCache)
    (s : TrafficDb) => Updates input flowId done db.tables s.tables ∧
      Cached input db.tables progress.2) ?_ ⟨⟨rfl, fun id => rfl⟩, ?_⟩) fun _ _ h => h.1
  · rintro done update later progress _ - ⟨hupdates, hcache⟩
    refine .bind (.bind ((ends_cachedDomains hupdates.observations hcache).mono ?_))
    rintro ⟨domains, cache⟩ s ⟨rfl, hdomains, hcached⟩
    cases update.resolved with
    | none => exact .bind (ends_execute (.pure (.pure ⟨hupdates.insert hdomains, hcached⟩)))
    | some application =>
      have hother : Updates input flowId done db.tables (s.tables.upsertApplication application
          (instantToSystem update.firstSeen input.nowInstant input.nowSystem)
          (instantToSystem update.lastSeen input.nowInstant input.nowSystem)) :=
        ⟨hupdates.observations, hupdates.rows⟩
      refine .bind (ends_execute (.bind (ends_execute (.pure (.pure ⟨?_, hcached⟩)))))
      exact hother.insert hdomains
  · intro place domains hlookup
    simp at hlookup

/-- What the first transaction makes of the associations. -/
theorem ends_record_associates {interfaces : HashMap UInt32 String} :
    Ends (record input flowId interfaces)
      (fun _ s => Associates input flowId db.tables s.tables) db := by
  refine .transaction (.bind ((ends_observe db).mono fun changed s₁ h₁ => ?_))
  obtain ⟨rfl, hchanged⟩ := h₁
  refine .bind (ends_associate.mono fun touched s₂ h₂ => ?_)
  obtain ⟨hobservations, hflows⟩ := h₂
  refine .bind (ends_updates.mono fun progress s₃ h₃ => .pure ⟨?_, fun id => ?_⟩)
  · exact h₃.observations.trans hobservations
  · have hassociate : ∀ place : IpAddr × ℤ, s₂.tables.associateAddress place.1 place.2
        input.nowSystem = associationsOf input db.tables place := by
      intro place
      unfold associationsOf Tables.associateAddress
      rw [hobservations]
    rw [h₃.rows id]
    unfold rewriteAddress
    cases (sightingsOf flowId id input.batch.flows).getLast? with
    | some update => exact congrArg some (hassociate _)
    | none =>
      simp only
      rw [hflows, Table.find_mapRows]
      have hobserved : (observeAll input db.tables).flows = db.tables.flows := flows_observe
      rw [hobserved]
      cases hrow : db.tables.flows.find id with
      | none => rfl
      | some row =>
        by_cases hplace : Changed input row.place
        · simp [Option.filter, hplace, FlowRow.reassociate, hchanged, associationsOf]
        · simp [Option.filter, hplace, FlowRow.reassociate, hchanged]

/-- An ingest stops in its first transaction, and leaves the tables as they were, or only
deletes of the flows and observations that transaction leaves. -/
theorem tryIngest_cases (input : IngestInput) (flowId : FlowKey → UInt64) (db : TrafficDb)
    (faults : List (Option String)) :
    (∃ recorded c, record input flowId (attached input db.interfaces) ⟨attachedDb input db, faults⟩ =
        (.ok recorded, c) ∧ ∀ {P : Tables → Prop}, Tables.Stable P → P c.store.tables →
          P (tryIngest flowId input ⟨db, faults⟩).2.store.tables) ∨
      (∃ e c, record input flowId (attached input db.interfaces) ⟨attachedDb input db, faults⟩ =
        (.error e, c)) ∧ (tryIngest flowId input ⟨db, faults⟩).2.store.tables = db.tables := by
  rw [tryIngest_eq, bind_apply, recordInterval_eq, bind_apply]
  generalize hrun : record input flowId (attached input db.interfaces)
    ⟨attachedDb input db, faults⟩ = run
  obtain ⟨e | recorded, c⟩ := run
  · right
    have hstore : c.store = attachedDb input db := store_of_transaction_error hrun
    refine ⟨⟨e, c, rfl⟩, ?_⟩
    simp only [hstore]
    rfl
  · left
    refine ⟨recorded, c, rfl, fun {P} h hc => ?_⟩
    have hrest : Keeps ((enforcePolicy input.settings input.policyInstant input.nowSystem >>= fun _ =>
        pure recorded) >>= finishInterval input flowId) fun db => P db.tables :=
      .bind (.bind (keeps_enforcePolicy h) fun _ => .pure) fun _ => keeps_finishInterval h
    exact hrest c hc

end Record

end ZimaScope
