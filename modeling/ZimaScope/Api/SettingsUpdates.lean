import ZimaScope.Api.Normalization
import ZimaScope.Db.Atomicity
import ZimaScope.Db.Histories
import ZimaScope.Proxy.Resolver

/-! # Settings updates

A settings request changes three copies: the row, which is committed by itself, the
settings in memory and the configuration of the proxy. The retention policy runs
between the first and the others, and it may fail or not be due.
-/

namespace ZimaScope

open Storage

/-- The settings row beside the traffic tables. -/
structure SettingsDb where
  row : Option (Settings × ℕ) := none
  traffic : TrafficDb

namespace SettingsDb

abbrev Action (α : Type) := Storage ApiError SettingsDb α

/-- Runs an action of the traffic tables. -/
def onTraffic {α : Type} (x : TrafficDb.Action α) : Action α := fun c =>
  let (result, c') := x ⟨c.store.traffic, c.faults⟩
  (result, ⟨{ c.store with traffic := c'.store }, c'.faults⟩)

def saveSettings (settings : Settings) (version : ℕ) (nowInstant : Instant) (now : SystemTime) :
    Action Unit := do
  Storage.execute .ofStorage fun db => { db with row := some (settings, version) }
  -- retention and capacity can delete flows immediately
  onTraffic (TrafficDb.enforcePolicy settings nowInstant now)

def loadSettings (db : SettingsDb) : Settings × ℕ := db.row.getD ({}, 0)

end SettingsDb

def ProxyShared.apply (shared : ProxyShared) (proxy : ProxySettings) : ProxyShared :=
  shared.configure proxy.enabled proxy.controllerUrl proxy.secret

/-- The controller that the settings name, if the integration is on. -/
def ProxySettings.target (proxy : ProxySettings) : Option Target :=
  if !proxy.enabled || proxy.controllerUrl = "" then none
  else some ⟨proxy.controllerUrl, proxy.secret⟩

/-- What the clock and the statements do while a request is served. -/
structure SettingsInput where
  nowInstant : Instant
  now : SystemTime
  faults : List (Option String) := []

/-- What the lock of the server protects, as far as settings requests use it. -/
structure SettingsServer where
  settings : Settings := {}
  settingsVersion : ℕ := 0
  db : SettingsDb
  proxy : ProxyShared := {}

namespace SettingsServer

variable (s : SettingsServer)

def applySettings (settings : Settings) (input : SettingsInput) :
    Except ApiError Unit × SettingsServer :=
  let s := { s with settingsVersion := s.settingsVersion + 1 }
  match SettingsDb.saveSettings settings s.settingsVersion input.nowInstant input.now
      ⟨s.db, input.faults⟩ with
  | (.error e, c) => (.error e, { s with db := c.store })
  | (.ok (), c) => (.ok (), { s with db := c.store, proxy := s.proxy.apply settings.proxy, settings })

/-- The lock section of `put_settings` and of `patch_settings`. -/
def serve (request : SettingsRequest) (input : SettingsInput) :
    Except ApiError Settings × SettingsServer :=
  match request.stored s.settings with
  | .error e => (.error e, s)
  | .ok settings =>
    let (result, s) := s.applySettings settings input
    (result.map fun _ => s.settings, s)

def restart (flowCapacity : ℕ) : SettingsServer where
  settings := s.db.loadSettings.1
  settingsVersion := s.db.loadSettings.2
  db := { s.db with traffic := TrafficDb.restart s.db.traffic.tables flowCapacity }
  proxy := ({} : ProxyShared).apply s.db.loadSettings.1.proxy

end SettingsServer

inductive SettingsEvent
  | serve (request : SettingsRequest) (input : SettingsInput)
  | ingest (input : IngestInput) (faults : List (Option String))
  | clearHistory (faults : List (Option String))
  | poll (outcome : Except String Resolutions)
  | restart (flowCapacity : ℕ)

section Servers

variable (flowId : FlowKey → UInt64)

def SettingsServer.next (s : SettingsServer) : SettingsEvent → SettingsServer
  | .serve request input => (s.serve request input).2
  | .ingest input faults =>
    { s with db := { s.db with traffic := s.db.traffic.next flowId (.ingest input faults) } }
  | .clearHistory faults =>
    { s with db := { s.db with traffic := s.db.traffic.next flowId (.clearHistory faults) } }
  | .poll outcome => { s with proxy := s.proxy.store outcome }
  | .restart flowCapacity => s.restart flowCapacity

/-- The runs from a new database. -/
def settingsServers : System SettingsServer where
  init s := ∃ flowCapacity,
    s = SettingsServer.restart ⟨{}, 0, ⟨none, { flowCapacity }⟩, {}⟩ flowCapacity
  step s s' := ∃ event, s' = s.next flowId event

end Servers

namespace SettingsServer

variable (s : SettingsServer)

/-- The settings in memory, their row, and the configuration of the proxy. -/
def copies : Settings × Option (Settings × ℕ) × Bool × Option Target :=
  (s.settings, s.db.row, s.proxy.status.enabled, s.proxy.target)

/-- Every copy holds these settings, and the stored flows are within their capacity. -/
structure Holds (settings : Settings) : Prop where
  memory : s.settings = settings
  row : s.db.row.map Prod.fst = some settings
  proxy : s.proxy.status.enabled = settings.proxy.enabled ∧ s.proxy.target = settings.proxy.target
  capacity : s.db.traffic.tables.flows.rows.length ≤ settings.resources.maxFlowEntries

/-- The request changes every copy, or reports an error and changes none. -/
def Atomic (request : SettingsRequest) (input : SettingsInput) : Prop :=
  match s.serve request input with
  | (.ok settings, s') => request.stored s.settings = .ok settings ∧ s'.Holds settings
  | (.error _, s') => s'.copies = s.copies

/-- Once the row is written, no statement of a due retention policy fails, and a policy that is not
due has no flows to delete for the new capacity. -/
def Undisturbed (request : SettingsRequest) (input : SettingsInput) : Prop :=
  ∀ settings, request.stored s.settings = .ok settings → input.faults.headD none = none →
    if s.db.traffic.policyDue input.nowInstant then
      ∀ fault ∈ input.faults.tail.take
        (TrafficDb.policyStatements settings input.now s.db.traffic.tables).length, fault = none
    else s.db.traffic.tables.flows.rows.length ≤ settings.resources.maxFlowEntries

end SettingsServer

/-! ## Capacity -/

namespace Tables

variable {t : Tables} {settings : Settings} {now : SystemTime}

theorem overflow_of_statsExact (h : t.StatsExact) :
    t.overflow settings = t.flows.rows.length - settings.resources.maxFlowEntries := by
  have htotal : t.flowStats.flowsTotal = t.flows.rows.length := by
    rw [show t.flowStats = t.recount from h]
    simp [recount, Table.total]
  rw [overflow, htotal]

theorem length_filter_oldest_le {n : ℕ} :
    (t.flows.rows.filter fun r => !(r.1 ∈ t.oldestFlows n)).length ≤ t.flows.rows.length - n := by
  have hperm := (List.perm_insertionSort Older t.flows.rows).symm
  generalize hsorted : t.flows.rows.insertionSort Older = sorted at hperm
  have hnone : (sorted.take n).filter (fun r => !(r.1 ∈ t.oldestFlows n)) = [] := by
    rw [List.filter_eq_nil_iff]
    intro r hr
    have hmem : r.1 ∈ t.oldestFlows n := by
      unfold oldestFlows
      rw [hsorted, Int.toNat_natCast]
      exact List.mem_map_of_mem hr
    simp [hmem]
  rw [(hperm.filter _).length_eq, ← List.take_append_drop n sorted, List.filter_append, hnone,
    List.nil_append, hperm.length_eq]
  exact (List.length_filter_le _ _).trans (List.length_drop).le

/-- A retention policy that ran leaves no more flows than their capacity. -/
theorem length_enforced_le (h : t.StatsExact) :
    (t.enforced settings now).flows.rows.length ≤ settings.resources.maxFlowEntries := by
  have hkept : (t.enforced settings now).flows.rows.length ≤
      (t.flows.rows.filter fun r => !(r.1 ∈ t.oldestFlows (t.overflow settings))).length := by
    rw [flows_enforced]
    refine (List.Sublist.length_le ?_)
    refine List.monotone_filter_right _ fun r hr => ?_
    unfold keptFlow at hr
    exact (Bool.and_eq_true _ _ ▸ hr).1
  refine hkept.trans ?_
  rw [overflow_of_statsExact h]
  rcases le_total t.flows.rows.length settings.resources.maxFlowEntries with hle | hle
  · exact (List.length_filter_le _ _).trans hle
  · have hcount : (t.flows.rows.length : ℤ) - settings.resources.maxFlowEntries =
        ((t.flows.rows.length - settings.resources.maxFlowEntries : ℕ) : ℤ) := by
      omega
    rw [hcount]
    refine length_filter_oldest_le.trans ?_
    omega

end Tables

namespace TrafficDb

variable {db : TrafficDb} {settings : Settings} {nowInstant : Instant} {now : SystemTime}

/-- A policy that is due may fail at as many statements as `policyStatements` has, and no other fails. -/
theorem length_stops_enforcePolicy : ∃ stops,
    stops.length = (if db.policyDue nowInstant then (policyStatements settings now db.tables).length
      else 0) ∧
      Trail (enforcePolicy settings nowInstant now) db stops () (db.enforced settings nowInstant now) := by
  obtain ⟨stops, hstops, htrail⟩ := @trail_enforcePolicy db settings nowInstant now
  refine ⟨stops, ?_, htrail⟩
  calc stops.length = (stops.map tables).length := (List.length_map tables).symm
    _ = _ := by
      rw [hstops]
      split
      · exact length_starts _ _
      · rfl

end TrafficDb

/-! ## Saving -/

section Saving

variable {settings : Settings} {version : ℕ} {nowInstant : Instant} {now : SystemTime}
  {db : SettingsDb} {faults : List (Option String)}

/-- No statement of the retention policy fails, whether it is due or not. -/
def SettingsDb.PolicyRuns (db : SettingsDb) (settings : Settings) (nowInstant : Instant)
    (now : SystemTime) (faults : List (Option String)) : Prop :=
  db.traffic.policyDue nowInstant = true → ∀ fault ∈ faults.take
    (TrafficDb.policyStatements settings now db.traffic.tables).length, fault = none

theorem saveSettings_of_some {error : String} (h : faults.headD none = some error) :
    SettingsDb.saveSettings settings version nowInstant now ⟨db, faults⟩ =
      (.error (.ofStorage error), ⟨db, faults.tail⟩) :=
  bind_of_error (statement_of_some h)

/-- The row is written whatever becomes of the policy. -/
theorem saveSettings_of_runs (version : ℕ) (h : faults.headD none = none)
    (hruns : db.PolicyRuns settings nowInstant now faults.tail) :
    ∃ rest, SettingsDb.saveSettings settings version nowInstant now ⟨db, faults⟩ =
      (.ok (), ⟨⟨some (settings, version), db.traffic.enforced settings nowInstant now⟩, rest⟩) := by
  obtain ⟨stops, hlength, htrail⟩ := @TrafficDb.length_stops_enforcePolicy db.traffic settings nowInstant now
  have hends := htrail.ends faults.tail (by
    rw [hlength]
    split
    · next hdue => exact hruns hdue
    · simp)
  refine ⟨faults.tail.drop stops.length, ?_⟩
  refine (bind_of_ok (statement_of_none h)).trans ?_
  unfold SettingsDb.onTraffic
  dsimp only
  rw [hends]

theorem saveSettings_of_not_runs (version : ℕ) (h : faults.headD none = none)
    (hruns : ¬db.PolicyRuns settings nowInstant now faults.tail) :
    ∃ e traffic rest, SettingsDb.saveSettings settings version nowInstant now ⟨db, faults⟩ =
      (.error e, ⟨⟨some (settings, version), traffic⟩, rest⟩) := by
  obtain ⟨stops, hlength, htrail⟩ := @TrafficDb.length_stops_enforcePolicy db.traffic settings nowInstant now
  unfold SettingsDb.PolicyRuns at hruns
  rw [Classical.not_imp] at hruns
  obtain ⟨hdue, hfault⟩ := hruns
  rw [if_pos hdue] at hlength
  rw [← hlength] at hfault
  obtain ⟨stop, -, e, rest, herror⟩ := htrail.stops_of_fault hfault
  refine ⟨e, stop, rest, ?_⟩
  refine (bind_of_ok (statement_of_none h)).trans ?_
  unfold SettingsDb.onTraffic
  dsimp only
  rw [herror]

end Saving

/-! ## Serving -/

section Serving

variable {flowId : FlowKey → UInt64} {s : SettingsServer} {request : SettingsRequest}
  {input : SettingsInput}

/-- The counters of the flows are exact, and the row is no newer than the settings in memory. -/
structure SettingsServer.Inv (s : SettingsServer) : Prop where
  stats : s.db.traffic.tables.StatsExact
  version : ∀ row ∈ s.db.row, row.2 ≤ s.settingsVersion

theorem proxy_apply (shared : ProxyShared) (proxy : ProxySettings) :
    (shared.apply proxy).status.enabled = proxy.enabled ∧
      (shared.apply proxy).target = proxy.target := by
  unfold ProxyShared.apply ProxyShared.configure ProxySettings.target
  split <;> exact ⟨rfl, rfl⟩

theorem inv_serve (h : s.Inv) : (s.serve request input).2.Inv := by
  unfold SettingsServer.serve
  cases hstored : request.stored s.settings with
  | error e => exact h
  | ok settings =>
    have hkeeps : Keeps (SettingsDb.saveSettings settings (s.settingsVersion + 1) input.nowInstant
        input.now) fun db =>
          db.traffic.tables.StatsExact ∧ ∀ row ∈ db.row, row.2 ≤ s.settingsVersion + 1 := by
      refine .bind (.execute fun db hdb => ⟨hdb.1, ?_⟩) fun _ c hc => ⟨?_, hc.2⟩
      · rintro _ ⟨rfl⟩
        exact le_rfl
      · exact TrafficDb.keeps_enforcePolicy Tables.kept_statsExact.toStable
          ⟨c.store.traffic, c.faults⟩ hc.1
    have hsaved := hkeeps ⟨s.db, input.faults⟩
      ⟨h.stats, fun row hrow => (h.version row hrow).trans (Nat.le_succ _)⟩
    unfold SettingsServer.applySettings
    dsimp only
    generalize SettingsDb.saveSettings settings (s.settingsVersion + 1) input.nowInstant input.now
      ⟨s.db, input.faults⟩ = saved at hsaved ⊢
    obtain ⟨e | ⟨⟩, c⟩ := saved
    · exact ⟨hsaved.1, hsaved.2⟩
    · exact ⟨hsaved.1, hsaved.2⟩

theorem inv_of_reachable (h : (settingsServers flowId).Reachable s) : s.Inv := by
  refine h.invariant (P := SettingsServer.Inv) ?_ ?_
  · rintro _ ⟨flowCapacity, rfl⟩
    exact ⟨rfl, fun row hrow => by cases hrow⟩
  · rintro s _ hs ⟨event, rfl⟩
    cases event with
    | serve request input => exact inv_serve hs
    | ingest input faults =>
      exact ⟨TrafficDb.keeps_tryIngest Tables.kept_statsExact ⟨s.db.traffic, faults⟩ hs.stats,
        hs.version⟩
    | clearHistory faults =>
      have hdeletes : ∀ f ∈ clearDeletes, Keeps (TrafficDb.execute f) fun db =>
          db.tables.StatsExact := by
        intro f hf
        refine .execute fun db ht => ?_
        fin_cases hf
        · exact Tables.deleteFlows_stats ht
        all_goals exact ht
      exact ⟨(Keeps.forM hdeletes) ⟨s.db.traffic, faults⟩ hs.stats, hs.version⟩
    | poll outcome => exact ⟨hs.stats, hs.version⟩
    | restart flowCapacity =>
      refine ⟨hs.stats, fun row hrow => ?_⟩
      change s.db.row = some row at hrow
      change row.2 ≤ (s.db.row.getD ({}, 0)).2
      rw [hrow]
      exact le_rfl

/-- A settings request is atomic exactly when the retention policy does not disturb it. -/
theorem serve_atomic_iff (h : (settingsServers flowId).Reachable s) (request : SettingsRequest)
    (input : SettingsInput) : s.Atomic request input ↔ s.Undisturbed request input := by
  have hinv := inv_of_reachable h
  unfold SettingsServer.Atomic SettingsServer.Undisturbed SettingsServer.serve
  cases hstored : request.stored s.settings with
  | error e => simp
  | ok settings =>
    simp only [Except.ok.injEq, forall_eq']
    unfold SettingsServer.applySettings
    dsimp only
    cases hinsert : input.faults.headD none with
    | some error =>
      rw [saveSettings_of_some hinsert]
      simp [Except.map, SettingsServer.copies]
    | none =>
      by_cases hruns : s.db.PolicyRuns settings input.nowInstant input.now input.faults.tail
      · obtain ⟨rest, hsave⟩ := saveSettings_of_runs (s.settingsVersion + 1) hinsert hruns
        rw [hsave]
        simp only [Except.map, true_and, forall_const]
        by_cases hdue : s.db.traffic.policyDue input.nowInstant = true
        · rw [if_pos hdue]
          refine iff_of_true ⟨rfl, rfl, proxy_apply _ _, ?_⟩ (hruns hdue)
          unfold TrafficDb.enforced
          rw [if_pos hdue]
          exact Tables.length_enforced_le hinv.stats
        · rw [if_neg hdue]
          have htables : (s.db.traffic.enforced settings input.nowInstant input.now).tables =
              s.db.traffic.tables := by
            unfold TrafficDb.enforced
            rw [if_neg hdue]
          constructor
          · intro hholds
            have hcapacity := hholds.capacity
            dsimp only at hcapacity
            rwa [htables] at hcapacity
          · intro hcapacity
            refine ⟨rfl, rfl, proxy_apply _ _, ?_⟩
            dsimp only
            rwa [htables]
      · obtain ⟨e, traffic, rest, hsave⟩ :=
          saveSettings_of_not_runs (s.settingsVersion + 1) hinsert hruns
        rw [hsave]
        simp only [Except.map, forall_const]
        refine iff_of_false (fun hcopies => ?_) fun hundisturbed => ?_
        · have hrow : some (settings, s.settingsVersion + 1) = s.db.row :=
            congrArg (fun copies => copies.2.1) hcopies
          have hversion := hinv.version _ hrow.symm
          dsimp only at hversion
          omega
        · refine hruns fun hdue => ?_
          rwa [if_pos hdue] at hundisturbed

/-- A server on a new database. -/
def newServer : SettingsServer :=
  SettingsServer.restart ⟨{}, 0, ⟨none, { flowCapacity := 65536 }⟩, {}⟩ 65536

theorem serve_atomic_new :
    newServer.Atomic (.put { enabled := false }) ⟨5, 1700000000000000000, []⟩ := by
  have hreach : (settingsServers fun _ => 0).Reachable newServer := .init ⟨65536, rfl⟩
  refine (serve_atomic_iff hreach _ _).mpr ?_
  intro settings _ _
  split
  · simp
  · next hdue => exact absurd rfl hdue

/-- The first statement of the retention policy fails. -/
def failingInput : SettingsInput := ⟨5, 1700000000000000000, [none, some "disk I/O error"]⟩

/-- The request reports an error, and a restart loads what it asked for. -/
theorem serve_fails_row_changes : ¬newServer.Atomic (.put { enabled := false }) failingInput ∧
    (newServer.serve (.put { enabled := false }) failingInput).1 =
      .error (.internal "storage error: disk I/O error") ∧
    (newServer.serve (.put { enabled := false }) failingInput).2.db.loadSettings =
      ({ enabled := false }, 1) ∧ newServer.db.loadSettings = ({}, 0) := by
  have herror : (newServer.serve (.put { enabled := false }) failingInput).1 =
      .error (.internal "storage error: disk I/O error") := by
    decide +kernel
  have hload : (newServer.serve (.put { enabled := false }) failingInput).2.db.loadSettings =
      ({ enabled := false }, 1) := by
    decide +kernel
  refine ⟨fun h => ?_, herror, hload, rfl⟩
  unfold SettingsServer.Atomic at h
  generalize newServer.serve (.put { enabled := false }) failingInput = served at h herror hload
  obtain ⟨result, s'⟩ := served
  obtain rfl : result = _ := herror
  have hrow : s'.db.row = none := congrArg (fun copies => copies.2.1) h
  unfold SettingsDb.loadSettings at hload
  dsimp only at hload
  rw [hrow] at hload
  cases hload

end Serving

end ZimaScope
