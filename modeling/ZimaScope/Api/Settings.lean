import Mathlib.Data.List.Destutter
import ZimaScope.Common.Model

/-! # Settings

The complete user-visible configuration, how a request body is normalised and
validated before it is stored, and what a partial update changes.
-/

namespace ZimaScope

/-- One failure of the API, rendered as problem details. -/
structure ApiError where
  status : ℕ
  problemType : String
  title : String
  detail : String
  deriving DecidableEq, Repr

namespace ApiError

def notFound (detail : String) : ApiError := ⟨404, "not_found", "Resource not found", detail⟩

def conflict (detail : String) : ApiError :=
  ⟨409, "conflict", "Request conflicts with the current state", detail⟩

def unprocessable (detail : String) : ApiError :=
  ⟨422, "unprocessable_request", "Request cannot be processed", detail⟩

def internal (detail : String) : ApiError := ⟨500, "internal_error", "Internal error", detail⟩

/-- What a failed statement is reported as. -/
def ofStorage (error : String) : ApiError := internal s!"storage error: {error}"

end ApiError

structure TrafficRuleSettings where
  enabled : Bool := true
  deriving DecidableEq, Repr

structure ProxySettings where
  enabled : Bool := false
  controllerUrl : String := ""
  secret : String := ""
  deriving DecidableEq, Repr

structure BoundarySettings where
  interfaces : List String := []
  deriving DecidableEq, Repr

structure DomainObservationSettings where
  enabled : Bool := true
  dns : Bool := true
  tlsSni : Bool := true
  httpHost : Bool := true
  deriving DecidableEq, Repr

structure HistorySettings where
  enabled : Bool := true
  retentionDays : ℕ := 7
  deriving DecidableEq, Repr

structure ResourceSettings where
  maxFlowEntries : ℕ := 65536
  diskQuotaMb : ℕ := 1024
  deriving DecidableEq, Repr

/-- Complete user-visible configuration. -/
structure Settings where
  enabled : Bool := true
  boundary : BoundarySettings := {}
  domains : DomainObservationSettings := {}
  history : HistorySettings := {}
  resources : ResourceSettings := {}
  proxy : ProxySettings := {}
  trafficRules : TrafficRuleSettings := {}
  deriving DecidableEq, Repr

def retentionDays : List ℕ := [1, 7, 30]

def minFlowEntries : ℕ := 1024

def maxFlowEntries : ℕ := 1048576

def minDiskQuotaMb : ℕ := 64

def maxDiskQuotaMb : ℕ := 1048576

def maxInterfaceNameLen : ℕ := 15

/-- `str::trim_end_matches`. -/
def trimEndMatches (s : String) (c : Char) : String :=
  String.ofList (s.toList.reverse.dropWhile (· = c)).reverse

namespace Settings

/-- Trims and deduplicates interface names; disabled observation switches are cleared. -/
def normalize (s : Settings) : Settings :=
  let interfaces := (s.boundary.interfaces.map trim).filter (· ≠ "")
  let secret := trim s.proxy.secret
  { s with
    boundary.interfaces := interfaces.destutter (· ≠ ·)
    domains :=
      if s.domains.enabled then s.domains
      else { s.domains with dns := false, tlsSni := false, httpHost := false }
    proxy :=
      { s.proxy with
        controllerUrl := trimEndMatches (trim s.proxy.controllerUrl) '/'
        secret := if s.proxy.enabled then secret else "" } }

def validate (s : Settings) : Except ApiError Unit :=
  if 8 < s.boundary.interfaces.length then
    .error (.unprocessable "boundary.interfaces accepts at most 8 interfaces")
  else
    match s.boundary.interfaces.find? fun name => maxInterfaceNameLen < name.utf8ByteSize with
    | some interface =>
      .error (.unprocessable
        s!"boundary.interfaces contains an invalid interface name: {repr interface}")
    | none =>
      if s.history.retentionDays ∉ ZimaScope.retentionDays then
        .error (.unprocessable "history.retention_days must be one of 1, 7 or 30")
      else if ¬ (minFlowEntries ≤ s.resources.maxFlowEntries ∧
          s.resources.maxFlowEntries ≤ ZimaScope.maxFlowEntries) then
        .error (.unprocessable ("resources.max_flow_entries must be between " ++
          s!"{minFlowEntries} and {ZimaScope.maxFlowEntries}"))
      else if ¬ (minDiskQuotaMb ≤ s.resources.diskQuotaMb ∧
          s.resources.diskQuotaMb ≤ maxDiskQuotaMb) then
        .error (.unprocessable ("resources.disk_quota_mb must be between " ++
          s!"{minDiskQuotaMb} and {maxDiskQuotaMb}"))
      else if s.proxy.enabled && (!startsWith s.proxy.controllerUrl "http://" ||
          200 < s.proxy.controllerUrl.utf8ByteSize) then
        .error (.unprocessable
          "proxy.controller_url must be an http:// URL (https is not supported yet)")
      else if s.proxy.enabled && 128 < s.proxy.secret.utf8ByteSize then
        .error (.unprocessable "proxy.secret must be at most 128 characters")
      else .ok ()

end Settings

structure BoundaryPatch where
  interfaces : Option (List String) := none
  deriving DecidableEq, Repr

structure DomainObservationPatch where
  enabled : Option Bool := none
  dns : Option Bool := none
  tlsSni : Option Bool := none
  httpHost : Option Bool := none
  deriving DecidableEq, Repr

structure HistoryPatch where
  enabled : Option Bool := none
  retentionDays : Option ℕ := none
  deriving DecidableEq, Repr

structure ResourcePatch where
  maxFlowEntries : Option ℕ := none
  diskQuotaMb : Option ℕ := none
  deriving DecidableEq, Repr

structure ProxyPatch where
  enabled : Option Bool := none
  controllerUrl : Option String := none
  secret : Option String := none
  deriving DecidableEq, Repr

structure TrafficRulePatch where
  enabled : Option Bool := none
  deriving DecidableEq, Repr

/-- Partial settings update; a group or field left out keeps its value. -/
structure SettingsPatch where
  enabled : Option Bool := none
  boundary : BoundaryPatch := {}
  domains : DomainObservationPatch := {}
  history : HistoryPatch := {}
  resources : ResourcePatch := {}
  proxy : ProxyPatch := {}
  trafficRules : TrafficRulePatch := {}
  deriving DecidableEq, Repr

def SettingsPatch.apply (p : SettingsPatch) (s : Settings) : Settings where
  enabled := p.enabled.getD s.enabled
  boundary.interfaces := p.boundary.interfaces.getD s.boundary.interfaces
  domains.enabled := p.domains.enabled.getD s.domains.enabled
  domains.dns := p.domains.dns.getD s.domains.dns
  domains.tlsSni := p.domains.tlsSni.getD s.domains.tlsSni
  domains.httpHost := p.domains.httpHost.getD s.domains.httpHost
  history.enabled := p.history.enabled.getD s.history.enabled
  history.retentionDays := p.history.retentionDays.getD s.history.retentionDays
  resources.maxFlowEntries := p.resources.maxFlowEntries.getD s.resources.maxFlowEntries
  resources.diskQuotaMb := p.resources.diskQuotaMb.getD s.resources.diskQuotaMb
  proxy.enabled := p.proxy.enabled.getD s.proxy.enabled
  proxy.controllerUrl := p.proxy.controllerUrl.getD s.proxy.controllerUrl
  proxy.secret := p.proxy.secret.getD s.proxy.secret
  trafficRules.enabled := p.trafficRules.enabled.getD s.trafficRules.enabled

end ZimaScope
