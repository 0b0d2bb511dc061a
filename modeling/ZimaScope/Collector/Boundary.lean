import ZimaScope.Collector.Routes

/-! # The Device Boundary

The interfaces of the host, as they are found under `/sys/class/net`, and what the configured
selectors stand for among them.
-/

namespace ZimaScope

inductive InterfaceSelector
  | defaultRoute
  | name (name : String)
  | index (index : UInt32)
  deriving DecidableEq, Repr

/-- An empty list of names follows the default route. -/
def InterfaceSelector.fromNames (names : List String) : List InterfaceSelector :=
  if names = [] then [.defaultRoute] else names.map .name

/-- What the directory of an interface holds: the texts of its files, where they can be read, and
what else is there. -/
structure InterfaceDir where
  ifindex : Option String
  arphrdType : Option String := none
  iflink : Option String := none
  flags : Option String := none
  bridge : Bool := false
  bonding : Bool := false
  tunFlags : Bool := false
  wireguard : Bool := false
  device : Bool := false
  entries : List String := []
  master : Option String := none

/-- The network interfaces of the host: the listing, in whatever order it comes, the directory that a
name leads to, and the text of the routing table. -/
structure Host where
  names : Option (List String)
  dir : String → Option InterfaceDir
  routes : Option String

/-! ## Classification -/

def arphrdLoopback : UInt32 := 772

structure InterfaceFacts where
  ifindex : UInt32
  arphrdType : Option UInt32
  hasBridge : Bool
  hasBonding : Bool
  hasTunFlags : Bool
  hasWireguard : Bool
  hasDevice : Bool
  hasLower : Bool
  iflink : Option UInt32

/-- Container bridges. -/
def isContainerBridge (name : String) : Bool := name = "docker0" || "br-".toList.isPrefixOf name.toList

/-- Classifies one interface from its facts. -/
def classifyInterface (name : String) (facts : InterfaceFacts) : InterfaceKind :=
  if name = "lo" ∨ facts.arphrdType = some arphrdLoopback then .loopback
  else if facts.hasBridge then if isContainerBridge name then .dockerBridge else .bridge
  else if facts.hasBonding then .bond
  else if facts.hasWireguard then .wireguard
  else if facts.hasTunFlags then .tunTap
  else if facts.hasLower then if '.' ∈ name.toList then .vlan else .virtual
  else if facts.hasDevice then .physical
  else if facts.iflink.any fun peer => peer ≠ facts.ifindex then .veth
  else .other

def readNumber (text : Option String) : Option ℕ :=
  text.bind fun text => parseUnsigned (2 ^ 64) (trim text).toList

/-- A number of 64 bits is cut to 32. -/
def readFacts (dir : InterfaceDir) : Option InterfaceFacts := do
  let ifindex ← readNumber dir.ifindex
  return {
    ifindex := .ofNat ifindex
    arphrdType := (readNumber dir.arphrdType).map .ofNat
    hasBridge := dir.bridge
    hasBonding := dir.bonding
    hasTunFlags := dir.tunFlags
    hasWireguard := dir.wireguard
    hasDevice := dir.device
    hasLower := dir.entries.any fun entry => "lower_".toList.isPrefixOf entry.toList
    iflink := (readNumber dir.iflink).map .ofNat }

def readFlags (dir : InterfaceDir) : Option ℕ := do
  let raw := (trim (← dir.flags)).toList
  fromStrRadix 16 (2 ^ 32) ((raw.dropPrefix? "0x".toList).getD raw)

/-- One interface as reported to settings, the picker and status. -/
structure HostInterface extends InterfaceInfo where
  ifindex : UInt32
  up : Bool
  deriving DecidableEq, Repr

/-! ## Enumeration -/

namespace Host

variable (host : Host)

/-- The interface of a listed name, unless nothing can be told of it. -/
def interfaceOf (name : String) : Option (Option HostInterface) :=
  match host.dir name with
  | none => some none
  | some dir =>
    if name = "" then some none
    else (readFacts dir).map fun facts =>
      if facts.ifindex = 0 then none
      else some {
        name
        kind := classifyInterface name facts
        defaultRoute := false
        master := dir.master
        ifindex := facts.ifindex
        up := (readFlags dir).any fun flags => flags &&& 1 ≠ 0 }

def kindOf (interfaces : List HostInterface) (name : String) : InterfaceKind :=
  ((byName (interfaces.map HostInterface.toInterfaceInfo) name).map InterfaceInfo.kind).getD .other

def defaultRoutes : List DefaultRoute := (host.routes.map parseDefaultRoutes).getD []

/-- The interfaces, with that of the route marked. -/
def markDefault (infos : List HostInterface) : Option DefaultRoute → List HostInterface
  | none => infos
  | some route => infos.map fun info => { info with defaultRoute := info.name = route.name }

/-- The interfaces by their index. -/
def enumerate : Option (List HostInterface) := do
  let infos := (← (← host.names).mapM host.interfaceOf).filterMap id
  let route := selectDefaultRoute host.defaultRoutes (kindOf infos)
  return (markDefault infos route).insertionSort fun a b => a.ifindex ≤ b.ifindex

/-- The interface of the default route, if any. -/
def defaultRouteFor : Option (Option String) := do
  let infos ← host.enumerate
  return (selectDefaultRoute host.defaultRoutes (kindOf infos)).map DefaultRoute.name

/-! ## Selectors -/

/-- The index that the file under a name gives. -/
def readIndex (name : String) : Option ℕ := do
  let text ← (← host.dir name).ifindex
  parseUnsigned (2 ^ 32) (trim text).toList

def ifindexForName (name : String) : Option UInt32 :=
  ((host.readIndex name).map UInt32.ofNat).filter (· ≠ 0)

/-- The first of the names with an index. -/
def nameForIndex (ifindex : UInt32) : Option String := do
  let names ← host.names
  ((names.filter fun name => host.readIndex name = some ifindex.toNat).insertionSort (· ≤ ·)).head?

/-- The interface that a name stands for, or the name while there is none. -/
def resolveName (name : String) : (UInt32 × String) ⊕ String :=
  match host.ifindexForName name with
  | some ifindex => .inl (ifindex, name)
  | none => .inr name

/-- The interface that a selector stands for, or the label under which it is pending. -/
def resolveSelector : InterfaceSelector → (UInt32 × String) ⊕ String
  | .defaultRoute =>
    match host.defaultRouteFor.getD none with
    | some name => host.resolveName name
    | none => .inr "default route"
  | .name name => host.resolveName name
  | .index index =>
    match host.nameForIndex index with
    | some name => host.resolveName name
    | none => .inr s!"ifindex {index}"

end Host

/-- Interfaces that exist now and selectors that are not present yet. -/
structure ResolvedBoundary where
  interfaces : List (UInt32 × String)
  pending : List String
  deriving DecidableEq, Repr

/-- The first name that stands somewhere before. -/
def firstDuplicate (names : List String) : Option String :=
  (names.zipIdx.find? fun entry => (names.take entry.2).contains entry.1).map Prod.fst

/-- Best-effort resolution of the configured boundary selectors. -/
def resolveSelectors (host : Host) (selectors : List InterfaceSelector) :
    Except String ResolvedBoundary :=
  if selectors = [] then .error "no Device Boundary interfaces configured"
  else
    let results := selectors.map host.resolveSelector
    let interfaces := results.filterMap Sum.getLeft?
    match firstDuplicate (interfaces.map Prod.snd) with
    | some name => .error s!"duplicate Device Boundary interface {repr name}"
    | none => .ok { interfaces, pending := results.filterMap Sum.getRight? }

end ZimaScope
