import ZimaScope.Common.Model

/-! # Observations and profiles

What user space knows about an address besides its traffic: the domains
associated with it, its scope, and where it is. The wall clock and the way the
monotonic clock is mapped to it.
-/

namespace ZimaScope

/-- A point of the wall clock, in nanoseconds after the epoch. -/
abbrev SystemTime := ℤ

namespace SystemTime

/-- Seconds are a signed 64-bit number. -/
def Representable (time : SystemTime) : Prop :=
  -(2 ^ 63) * 1000000000 ≤ time ∧ time < 2 ^ 63 * 1000000000

instance (time : SystemTime) : Decidable time.Representable := inferInstanceAs (Decidable (_ ∧ _))

def checkedAdd (time : SystemTime) (d : Duration) : Option SystemTime :=
  if Representable (time + d) then some (time + d) else none

def checkedSub (time : SystemTime) (d : Duration) : Option SystemTime :=
  if Representable (time - d) then some (time - d) else none

end SystemTime

/-- The time of an instant, given one moment on both clocks. -/
def instantToSystem (instant nowInstant : Instant) (nowSystem : SystemTime) : SystemTime :=
  if nowInstant ≤ instant then
    (nowSystem.checkedAdd (instant - nowInstant).toNat).getD nowSystem
  else (nowSystem.checkedSub (nowInstant - instant).toNat).getD nowSystem

/-- Milliseconds after the epoch, rounded towards it. -/
def unixMillis (time : SystemTime) : ℤ :=
  if 0 ≤ time then min (time / 1000000) (2 ^ 63 - 1) else -min (-time / 1000000) (2 ^ 63 - 1)

/-- The last full step of that many seconds; times before the epoch count as the epoch. -/
def truncateTime (time : SystemTime) (stepSecs : ℕ) : SystemTime :=
  max time 0 / 1000000000 / stepSecs * stepSecs * 1000000000

inductive DomainEvidence | dns | tlsSni | httpHost
  deriving DecidableEq, Repr

inductive AssociationConfidence | direct | inferred
  deriving DecidableEq, Repr

/-- An association between a domain and an endpoint. -/
structure DomainObservation where
  domain : String
  address : IpAddr
  evidence : DomainEvidence
  confidence : AssociationConfidence
  clientContext : UInt64
  observedAt : Instant
  expiresAt : Instant

/-- The interface that produced the observation; zero is unknown. -/
def DomainObservation.ifindex (observation : DomainObservation) : UInt32 :=
  observation.clientContext.toUInt32

/-- Classification of an address relative to the public internet. -/
inductive AddressScope
  | publicScope | privateScope | shared | fakeIp | loopback | linkLocal | uniqueLocal
  | multicast | broadcast | documentation | reserved | unspecified
  deriving DecidableEq, Repr

namespace AddressScope

def classifyV4 (address : Ipv4Addr) : AddressScope :=
  let value := address.a.toUInt32 <<< 24 ||| address.b.toUInt32 <<< 16 |||
    address.c.toUInt32 <<< 8 ||| address.d.toUInt32
  if value = 0xFFFFFFFF then .broadcast
  else if address.a = 127 then .loopback
  else if address.a = 10 || address.a = 172 && address.b &&& 0xF0 = 16 ||
      address.a = 192 && address.b = 168 then
    .privateScope
  else if address.a = 169 && address.b = 254 then .linkLocal
  else if address.a &&& 0xF0 = 224 then .multicast
  else if value &&& 0xFFFFFF00 = 0xC0000200 || value &&& 0xFFFFFF00 = 0xC6336400 ||
      value &&& 0xFFFFFF00 = 0xCB007100 then .documentation
  else if value = 0 then .unspecified
  else if value &&& 0xFFC00000 = 0x64400000 then .shared
  else if value &&& 0xFFFE0000 = 0xC6120000 then .fakeIp
  else if value &&& 0xFFFFFF00 = 0xC0000000 || value &&& 0xF0000000 = 0xF0000000 ||
      value &&& 0xFF000000 = 0 then .reserved
  else .publicScope

def classifyV6 (o : Vector UInt8 16) : AddressScope :=
  if o = #v[0, 0, 0, 0, 0, 0, 0, 0, 0, 0, 0, 0, 0, 0, 0, 1] then .loopback
  else if o = #v[0, 0, 0, 0, 0, 0, 0, 0, 0, 0, 0, 0, 0, 0, 0, 0] then .unspecified
  else if o[0] &&& 0xFE = 0xFC then .uniqueLocal
  else if o[0] = 0xFE && o[1] &&& 0xC0 = 0x80 then .linkLocal
  else if o[0] = 0xFF then .multicast
  else if o[0] = 0x20 && o[1] = 0x01 && o[2] = 0x0D && o[3] = 0xB8 then .documentation
  else .publicScope

def classify : IpAddr → AddressScope
  | .v4 address => classifyV4 address
  | .v6 octets => classifyV6 octets

end AddressScope

example : AddressScope.classify (.v4 ⟨#v[198, 19, 255, 255]⟩) = .fakeIp := by decide

/-- Locally enriched information about an address. -/
structure IpProfile where
  scope : AddressScope
  country : Option String := none
  region : Option String := none
  cityApproximate : Option String := none
  asn : Option UInt32 := none
  organization : Option String := none
  databaseVersion : Option String := none
  enrichedAt : SystemTime := 0
  deriving DecidableEq, Repr

/-- The peer of the flow. -/
def remoteEndpoint (key : FlowKey) : Endpoint :=
  match key.direction with
  | .inbound => key.source
  | .outbound => key.destination

end ZimaScope
