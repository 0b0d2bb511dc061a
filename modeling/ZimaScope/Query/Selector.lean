import ZimaScope.Common.Abi

/-! # Selectors

The one query language of the control plane: what a Traffic Rule targets, which
selectors are valid, and how a selector reaches the packet path.
-/

namespace ZimaScope

/-- What an action targets. -/
inductive Selector
  | endpoint (address : IpAddr) (port : Option UInt16)
  | cidr (address : IpAddr) (prefixLen : ℕ)
  | application (id : String)
  deriving DecidableEq, Repr

/-- What re-resolves a resolved selector. -/
inductive Refresh | containerIndex | applicationsTable | evidence
  deriving DecidableEq, Repr

/-- How a selector reaches the packet path. -/
inductive KernelPlan
  | direct
  | resolved (refresh : Refresh) (expires : Bool)
  | unsupported (reason : String)
  deriving DecidableEq, Repr

def ipv6Reason : String := "IPv6 matching is a later phase"

namespace Ipv4Addr

def isUnspecified (a : Ipv4Addr) : Bool := a.octets = #v[0, 0, 0, 0]

def isMulticast (address : Ipv4Addr) : Bool :=
  224 ≤ address.a.toNat && address.a.toNat ≤ 239

def isBroadcast (a : Ipv4Addr) : Bool := a.octets = #v[255, 255, 255, 255]

def toString (a : Ipv4Addr) : String :=
  ".".intercalate (a.octets.toList.map fun octet => s!"{octet.toNat}")

end Ipv4Addr

def IpAddr.isIpv6 : IpAddr → Bool
  | .v4 _ => false
  | .v6 _ => true

/-- Unicode `White_Space`, the characters `str::trim` strips. -/
def isWhiteSpace (c : Char) : Bool :=
  let n := c.toNat
  (0x09 ≤ n && n ≤ 0x0D) || n = 0x20 || n = 0x85 || n = 0xA0 || n = 0x1680 ||
    (0x2000 ≤ n && n ≤ 0x200A) || n = 0x2028 || n = 0x2029 || n = 0x202F || n = 0x205F ||
    n = 0x3000

def startsWith (s literal : String) : Bool := literal.toList.isPrefixOf s.toList

def stripPrefix (s literal : String) : Option String :=
  if startsWith s literal then some (String.ofList (s.toList.drop literal.length)) else none

def validateAddress : IpAddr → Except String Unit
  | .v6 _ => .error ipv6Reason
  | .v4 address =>
    if address.isUnspecified || address.isMulticast || address.isBroadcast then
      .error s!"{address.toString} is not a matchable endpoint address"
    else .ok ()

namespace Selector

/-- Validates one selector in product terms. -/
def validate : Selector → Except String Unit
  | endpoint address port => do
    validateAddress address
    if port = some 0 then .error "port 0 is not a valid match" else .ok ()
  | cidr address prefixLen => do
    validateAddress address
    if 1 ≤ prefixLen ∧ prefixLen ≤ 32 then .ok ()
    else .error "CIDR prefix length must be between 1 and 32"
  | application id =>
    if id.toList.all isWhiteSpace then .error "application identity is empty" else .ok ()

/-- The kernel capability of a selector. -/
def kernelPlan : Selector → KernelPlan
  | endpoint address _ | cidr address _ =>
    if address.isIpv6 then .unsupported ipv6Reason else .direct
  | application id =>
    if startsWith id "proc:comm:" then .direct
    else if startsWith id "cont:" then .resolved .containerIndex false
    else if startsWith id "proc:" then .resolved .applicationsTable false
    else .unsupported "application identity must start with cont:, proc: or proc:comm:"

theorem validate_endpoint {address : IpAddr} {port : Option UInt16}
    (h : (endpoint address port).validate = .ok ()) :
    (∃ a, address = .v4 a) ∧ port ≠ some 0 := by
  cases address with
  | v6 _ => simp [validate, validateAddress, bind, Except.bind] at h
  | v4 a =>
    refine ⟨⟨a, rfl⟩, ?_⟩
    rintro rfl
    simp only [validate, bind, Except.bind] at h
    split at h <;> simp at h

theorem validate_cidr {address : IpAddr} {prefixLen : ℕ}
    (h : (cidr address prefixLen).validate = .ok ()) :
    (∃ a, address = .v4 a) ∧ 1 ≤ prefixLen ∧ prefixLen ≤ 32 := by
  cases address with
  | v6 _ => simp [validate, validateAddress, bind, Except.bind] at h
  | v4 a =>
    refine ⟨⟨a, rfl⟩, ?_⟩
    simp only [validate, bind, Except.bind] at h
    split at h
    · simp at h
    · split at h
      · assumption
      · simp at h

end Selector

end ZimaScope
