import Mathlib.Data.List.Dedup
import Mathlib.Data.List.Lex
import ZimaScope.Query.Selector

/-! # Evidence resolution

Resolving a selector into bounded kernel-matchable targets. `Resolver` is the
seam every consumer goes through; `systemResolver` resolves against the host's
cgroup tree and its stored process names.
-/

namespace ZimaScope

/-- One kernel-matchable target. -/
inductive MatchTarget
  | endpoint (address : Ipv4Addr) (port : Option UInt16)
  | cidr (address : Ipv4Addr) (prefixLen : ℕ)
  | appCgroup (cgroupId : UInt64)
  | appComm (comm : Vector UInt8 16)
  deriving DecidableEq, Repr

/-- Whether a resolution is usable. -/
inductive Coverage
  | complete
  | unresolved (reason : String)
  deriving DecidableEq, Repr

/-- The bounded resource set a selector locates. -/
structure Resolution where
  targets : List MatchTarget
  coverage : Coverage
  deriving DecidableEq, Repr

/-- One selector-to-target conversion; a resolver may update its own state. -/
abbrev Resolver (σ : Type) := σ → Selector → Except String Resolution × σ

/-- What the system resolver consults: the cgroup index and the stored names. -/
structure Evidence where
  inodesForContainer : String → List UInt64
  comm : String → Option String

/-- A host without containers and process names. -/
def noEvidence : Evidence := ⟨fun _ => [], fun _ => none⟩

/-- Encodes a process name as the kernel does: at most 15 bytes, NUL padded. -/
def commBytes (comm : String) : Vector UInt8 16 :=
  Vector.ofFn fun i => if i.val < 15 then comm.toUTF8.data.getD i.val 0 else 0

namespace MatchTarget

/-- The derived order: variants as declared, then their fields. -/
def rank : MatchTarget → List ℕ
  | endpoint address port =>
    0 :: address.octets.toList.map UInt8.toNat ++ (match port with
      | none => [0]
      | some p => [1, p.toNat])
  | cidr address prefixLen => 1 :: address.octets.toList.map UInt8.toNat ++ [prefixLen]
  | appCgroup cgroupId => [2, cgroupId.toNat]
  | appComm comm => 3 :: comm.toList.map UInt8.toNat

end MatchTarget

namespace Resolution

/-- Complete resolutions are sorted and carry no target twice. -/
def ofTargets (targets : List MatchTarget) : Resolution where
  targets := (targets.mergeSort fun a b => a.rank ≤ b.rank).dedup
  coverage := .complete

def ofUnresolved (reason : String) : Resolution := ⟨[], .unresolved reason⟩

@[simp] theorem mem_ofTargets {targets : List MatchTarget} {t : MatchTarget} :
    t ∈ (ofTargets targets).targets ↔ t ∈ targets := by
  simp [ofTargets]

end Resolution

namespace Evidence

def application (ev : Evidence) (id : String) : Resolution :=
  match stripPrefix id "proc:comm:" with
  | some comm =>
    if comm = "" then .ofUnresolved "process name is empty"
    else .ofTargets [.appComm (commBytes comm)]
  | none =>
    match stripPrefix id "cont:" with
    | some container =>
      let inodes := ev.inodesForContainer container
      if inodes = [] then .ofUnresolved s!"container {container} has no cgroup directory"
      else .ofTargets (inodes.map .appCgroup)
    | none =>
      if startsWith id "proc:" then
        match ev.comm id with
        | none => .ofUnresolved s!"no stored process name for {id}"
        | some comm => .ofTargets [.appComm (commBytes comm)]
      else .ofUnresolved s!"application identity {repr id} has no known prefix"

def resolve (ev : Evidence) : Selector → Resolution
  | .endpoint (.v4 address) port => .ofTargets [.endpoint address port]
  | .cidr (.v4 address) prefixLen => .ofTargets [.cidr address prefixLen]
  | .endpoint (.v6 _) _ | .cidr (.v6 _) _ => .ofUnresolved "IPv6 matching is a later phase"
  | .application id => ev.application id

end Evidence

/-- The production resolver, over evidence that stays fixed while it is used. -/
def systemResolver : Resolver Evidence := fun ev selector => (.ok (ev.resolve selector), ev)

end ZimaScope
