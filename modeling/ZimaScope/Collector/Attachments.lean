import ZimaScope.Collector.Boundary
import ZimaScope.Collector.Health
import ZimaScope.Lib.Handles
import ZimaScope.Lib.System
import ZimaScope.Lib.Table

/-! # Attachments

The hooks that the collector attaches to the interfaces of the boundary and to the cgroup root, and
the links that it holds of them. Any call to the kernel may fail, and the kernel may take a hook away
at any time.
-/

namespace ZimaScope

/-- Where a program is attached. -/
inductive HookTarget
  | tc (ifindex : UInt32) (direction : TcAttachType)
  | sockOwner
  | udpOwner
  deriving DecidableEq, Repr

abbrev HookLink := Handle HookTarget

/-- The hooks in the kernel, and how many calls there were. -/
structure KernelHooks where
  hooks : Handles HookTarget
  calls : ℕ

def TcAttachType.program : TcAttachType → String
  | .ingress => "tc_ingress_v1"
  | .egress => "tc_egress_v1"

/-- An interface of the boundary with its links. -/
structure LinkedInterface where
  ifindex : UInt32
  name : String
  tcx : Bool
  ingress : Option HookLink
  egress : Option HookLink
  lastError : Option String

namespace LinkedInterface

def links (interface : LinkedInterface) : List HookLink :=
  interface.ingress.toList ++ interface.egress.toList

def isHealthy (interface : LinkedInterface) : Bool :=
  interface.ingress.isSome && interface.egress.isSome

end LinkedInterface

/-- Owns every link of one collection session. -/
structure BoundarySource where
  ownerLink : Option HookLink
  ownerError : Option String
  udpLink : Option HookLink
  udpError : Option String
  attached : List LinkedInterface

/-! ## Calls -/

-- what the kernel answers to each call: an error or nothing
variable (answer : ℕ → Option String)

namespace KernelHooks

/-- A call that changes no hook. -/
def call (kernel : KernelHooks) : Option String × KernelHooks :=
  (answer kernel.calls, { kernel with calls := kernel.calls + 1 })

def attach (kernel : KernelHooks) (target : HookTarget) : Except String HookLink × KernelHooks :=
  match answer kernel.calls with
  | some error => (.error error, { kernel with calls := kernel.calls + 1 })
  | none =>
    let acquired := kernel.hooks.acquire target
    (.ok acquired.1, ⟨acquired.2, kernel.calls + 1⟩)

/-- A link is gone after this, also when the hook is not. -/
def detach (kernel : KernelHooks) (link : HookLink) : Option String × KernelHooks :=
  let error := answer kernel.calls
  (error, ⟨kernel.hooks.release link error.isNone, kernel.calls + 1⟩)

/-- Detaches links, whatever comes of it. -/
def detachAll (kernel : KernelHooks) (links : List HookLink) : KernelHooks :=
  links.foldl (fun kernel link => (kernel.detach answer link).2) kernel

end KernelHooks

/-! ## Attaching -/

def attachHook (kernel : KernelHooks) (ifindex : UInt32) (name : String) (direction : TcAttachType) :
    Except String HookLink × KernelHooks :=
  match kernel.attach answer (.tc ifindex direction) with
  | (.ok link, kernel) => (.ok link, kernel)
  | (.error error, kernel) => (.error s!"attach {repr direction.program} to {name}: {error}", kernel)

/-- The queueing discipline that the legacy path needs. -/
def addClsact (kernel : KernelHooks) (tcx : Bool) (name : String) : Option String × KernelHooks :=
  if tcx then (none, kernel)
  else
    let (error, kernel) := kernel.call answer
    (error.map fun error => s!"add clsact qdisc to {name}: {error}", kernel)

/-- Attaches both hooks of an interface or none. -/
def attachLinks (tcx : Bool) (kernel : KernelHooks) (ifindex : UInt32) (name : String) :
    Except String LinkedInterface × KernelHooks :=
  match addClsact answer kernel tcx name with
  | (some error, kernel) => (.error error, kernel)
  | (none, kernel) =>
    match attachHook answer kernel ifindex name .ingress with
    | (.error error, kernel) => (.error error, kernel)
    | (.ok ingress, kernel) =>
      match attachHook answer kernel ifindex name .egress with
      | (.error error, kernel) => (.error error, kernel.detachAll answer [ingress])
      | (.ok egress, kernel) =>
        (.ok ⟨ifindex, name, tcx, some ingress, some egress, none⟩, kernel)

/-- Attaches every interface, or none of them. -/
def attachInterfaces (tcx : Bool) (kernel : KernelHooks) (attached : List LinkedInterface) :
    List (UInt32 × String) → Except String (List LinkedInterface) × KernelHooks
  | [] => (.ok attached, kernel)
  | (ifindex, name) :: rest =>
    match attachLinks answer tcx kernel ifindex name with
    | (.ok interface, kernel) => attachInterfaces tcx kernel (attached ++ [interface]) rest
    | (.error error, kernel) =>
      (.error error, kernel.detachAll answer (attached.flatMap LinkedInterface.links))

/-- Attaches a program to the cgroup root. -/
def attachCgroup (kernel : KernelHooks) (target : HookTarget) (program : String) :
    Except String HookLink × KernelHooks :=
  match kernel.call answer with
  | (some error, kernel) => (.error s!"open cgroup root \"/sys/fs/cgroup\": {error}", kernel)
  | (none, kernel) =>
    match kernel.attach answer target with
    | (.ok link, kernel) => (.ok link, kernel)
    | (.error error, kernel) => (.error s!"attach {program} program to the cgroup root: {error}", kernel)

def okLink : Except String HookLink → Option HookLink
  | .ok link => some link
  | .error _ => none

def linkError : Except String HookLink → Option String
  | .ok _ => none
  | .error error => some error

namespace BoundarySource

/-- Attaches the owner programs where it can, and the boundary as a whole. -/
def openWith (tcx : Bool) (host : Host) (selectors : List InterfaceSelector) (kernel : KernelHooks) :
    Except String BoundarySource × KernelHooks :=
  let (owner, kernel) := attachCgroup answer kernel .sockOwner "socket owner"
  let (udp, kernel) := attachCgroup answer kernel .udpOwner "UDP owner"
  -- the links are dropped where the rest fails
  let dropped := (okLink udp).toList ++ (okLink owner).toList
  match resolveSelectors host selectors with
  | .error error => (.error error, kernel.detachAll answer dropped)
  | .ok boundary =>
    match attachInterfaces answer tcx kernel [] boundary.interfaces with
    | (.error error, kernel) =>
      (.error s!"attach Z-Scope TC ingress/egress hooks: {error}", kernel.detachAll answer dropped)
    | (.ok attached, kernel) =>
      (.ok ⟨okLink owner, linkError owner, okLink udp, linkError udp, attached⟩, kernel)

/-! ## Reconciling -/

/-- An interface is stored under its index; what was stored there is dropped. -/
def store (current : Table UInt32 LinkedInterface × KernelHooks) (interface : LinkedInterface) :
    Table UInt32 LinkedInterface × KernelHooks :=
  (current.1.upsert interface.ifindex fun _ => interface,
    current.2.detachAll answer ((current.1.find interface.ifindex).elim [] LinkedInterface.links))

/-- Detaches the interfaces that are not wanted any more. -/
def retainWanted (boundary : List (UInt32 × String))
    (current : Table UInt32 LinkedInterface × KernelHooks) :
    Table UInt32 LinkedInterface × KernelHooks :=
  let wanted : UInt32 → Bool := fun ifindex => boundary.any fun interface => interface.1 = ifindex
  (current.1.filter fun ifindex _ => wanted ifindex,
    current.2.detachAll answer
      ((current.1.rows.filter fun row => !wanted row.1).flatMap fun row => row.2.links))

/-- One interface of the boundary: a healthy one is left alone, any other attached anew. -/
def ensure (tcx : Bool) (current : Table UInt32 LinkedInterface × KernelHooks)
    (wanted : UInt32 × String) : Table UInt32 LinkedInterface × KernelHooks :=
  if (current.1.find wanted.1).any LinkedInterface.isHealthy then current
  else
    let stale := (current.1.find wanted.1).elim [] LinkedInterface.links
    let (result, kernel) := attachLinks answer tcx (current.2.detachAll answer stale) wanted.1 wanted.2
    let interface := match result with
      | .ok interface => interface
      | .error error => ⟨wanted.1, wanted.2, tcx, none, none, some error⟩
    (current.1.upsert wanted.1 fun _ => interface, kernel)

/-- The attachments for a boundary, by their index. -/
def reattach (tcx : Bool) (boundary : List (UInt32 × String)) (attached : List LinkedInterface)
    (kernel : KernelHooks) : List LinkedInterface × KernelHooks :=
  let current := attached.foldl (store answer) (∅, kernel)
  let current := boundary.foldl (ensure answer tcx) (retainWanted answer boundary current)
  ((current.1.rows.map Prod.snd).insertionSort fun a b => a.ifindex ≤ b.ifindex, current.2)

def reconcile (tcx : Bool) (host : Host) (selectors : List InterfaceSelector) (source : BoundarySource)
    (kernel : KernelHooks) : Except String Unit × BoundarySource × KernelHooks :=
  match resolveSelectors host selectors with
  | .error error => (.error error, source, kernel)
  | .ok boundary =>
    let (attached, kernel) := reattach answer tcx boundary.interfaces source.attached kernel
    (.ok (), { source with attached }, kernel)

/-! ## Detaching -/

/-- The links of an interface, with the texts that tell of their errors. -/
def namedLinks (interface : LinkedInterface) : List (String × HookLink) :=
  (interface.ingress.map fun link => (s!"detach ingress hook on {interface.name}", link)).toList ++
    (interface.egress.map fun link => (s!"detach egress hook on {interface.name}", link)).toList

def allLinks (source : BoundarySource) : List (String × HookLink) :=
  (source.ownerLink.map fun link => ("detach socket owner program", link)).toList ++
    (source.udpLink.map fun link => ("detach UDP owner program", link)).toList ++
    source.attached.flatMap namedLinks

/-- Detaches one more; the first error is kept. -/
def detachNamed (result : Option String × KernelHooks) (entry : String × HookLink) :
    Option String × KernelHooks :=
  let (error, kernel) := result.2.detach answer entry.2
  (result.1.or (error.map fun error => s!"{entry.1}: {error}"), kernel)

def detach (source : BoundarySource) (kernel : KernelHooks) :
    Option String × BoundarySource × KernelHooks :=
  let (error, kernel) := source.allLinks.foldl (detachNamed answer) (none, kernel)
  (error, { source with ownerLink := none, udpLink := none, attached := [] }, kernel)

end BoundarySource

end ZimaScope
